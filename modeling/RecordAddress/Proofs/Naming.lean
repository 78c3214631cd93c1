import RecordAddress.Proofs.Definitions
import RecordAddress.Proofs.Opened
import RecordAddress.Proofs.Reached
import RecordAddress.Proofs.Tokens

/-! Names below open containers. A token names a property of the container of a schema exactly if objects of
the schema take the token, and the property leads where the token does. -/

namespace RecordAddress

variable {registry : Registry} {memory : Memory} {root schema : Schema} {container : Container} {place : Place}

/-- The containers that pointers have for what is nested in single values. -/
inductive Furnishes (registry : Registry) (root : Schema) : Content Schema → Option Container → Node → Prop
  | scalar {type : Scalar} : Furnishes registry root (.scalar type) none .leaf
  | nested {reference : Reference Schema} {schema : Schema} {place : Place} {container : Container} :
      registry.target reference = .ok schema → Stands registry root place schema → container.Opens schema place →
      Furnishes registry root (.nested reference) (some container) (.object schema)

/-- The containers that pointers have for what is nested in the values of fields. -/
inductive Arranges (registry : Registry) (root : Schema) : Arrangement Schema → Option Container → Node → Prop
  | single {content : Content Schema} {children : Option Container} {node : Node} :
      Furnishes registry root content children node → Arranges registry root (.single content) children node
  | array {item : Item Schema} {children : Option Container} {inner : Node} :
      Furnishes registry root item.content children inner →
      Arranges registry root (.array item) children (.array item.content)
  | map {item : Item Schema} {children : Option Container} {inner : Node} :
      Furnishes registry root item.content children inner →
      Arranges registry root (.map item) children (.map item.content)

theorem Furnishes.leads {content : Content Schema} {children : Option Container} {node : Node}
    (furnishes : Furnishes registry root content children node) : content.Leads registry node := by
  cases furnishes with
  | scalar => exact .scalar
  | nested target => exact .nested target

/-- What comes after the property of a collection. -/
def Collection.node (element : Content Schema) : Collection → Node
  | array => .array element
  | map => .map element

theorem Furnishes.single {content element : Content Schema} {kind : Collection} {children : Option Container} :
    ¬ Furnishes registry root content children (kind.node element) := by
  cases kind <;> exact nofun

theorem Arranges.by_kind {field : Field Schema} {children : Option Container} {node : Node}
    (arranges : Arranges registry root field.arrangement children node) :
    (field.collection? = none ∧ Furnishes registry root field.content children node) ∨
    ∃ kind inner, field.collection? = some kind ∧ Furnishes registry root field.content children inner ∧
      node = kind.node field.content := by
  rcases field with ⟨arrangement, key, name, mappedKey, origin⟩
  cases arranges with
  | single furnishes => exact .inl ⟨rfl, furnishes⟩
  | array furnishes => exact .inr ⟨.array, _, rfl, furnishes, rfl⟩
  | map furnishes => exact .inr ⟨.map, _, rfl, furnishes, rfl⟩

theorem Content.Leads.unique {content : Content Schema} {node other : Node} (leads : content.Leads registry node)
    (otherLeads : content.Leads registry other) : other = node := by
  cases leads with
  | scalar =>
    cases otherLeads
    rfl
  | nested target =>
    cases otherLeads with
    | nested otherTarget =>
      cases target.symm.trans otherTarget
      rfl

/-- What is nested in a property of an open container can be opened, and leads where the field does. -/
theorem field_furnishes (complete : root.Complete registry) (faithful : memory.Faithful registry root)
    (stands : Stands registry root place schema) {field : Field Schema} (declared : field ∈ schema.fields)
    {property : Property} (same : property.field = field)
    (standing : property.place = some (place.below (.property field.name))) :
    ∃ children node, ({ registry, memory } : Context).nested property = .ok children ∧
      Furnishes registry root field.content children node := by
  cases content : field.content with
  | scalar type => exact ⟨none, .leaf, nested_of_scalar (same ▸ content), .scalar⟩
  | nested reference =>
    obtain ⟨target, found⟩ := complete.registered stands.reaches (.field declared content)
    have below := stands.property declared content found
    obtain ⟨children, opened, opens⟩ := nested_opens complete faithful below standing (same ▸ content) found
    exact ⟨some children, .object target, opened, .nested found below opens⟩

theorem arranges_of_leads {field : Field Schema} {children : Option Container} {inner node : Node}
    (furnishes : Furnishes registry root field.content children inner) (leads : field.arrangement.Leads registry node) :
    Arranges registry root field.arrangement children node := by
  unfold Field.content at furnishes
  cases arrangement : field.arrangement with
  | single content =>
    rw [arrangement] at furnishes leads
    cases leads with
    | single leads =>
      cases furnishes.leads.unique leads
      exact .single furnishes
  | array item =>
    rw [arrangement] at furnishes leads
    cases leads
    exact .array furnishes
  | map item =>
    rw [arrangement] at furnishes leads
    cases leads
    exact .map furnishes

theorem arrangement_leads {field : Field Schema} {children : Option Container} {inner : Node}
    (furnishes : Furnishes registry root field.content children inner) :
    ∃ node, field.arrangement.Leads registry node := by
  unfold Field.content at furnishes
  cases arrangement : field.arrangement with
  | single content =>
    rw [arrangement] at furnishes
    exact ⟨inner, .single furnishes.leads⟩
  | array item => exact ⟨_, .array⟩
  | map item => exact ⟨_, .map⟩

theorem offers_of_property? (complete : root.Complete registry) (faithful : memory.Faithful registry root)
    (stands : Stands registry root place schema) (opens : container.Opens schema place) {name : String}
    {target : Property} (found : container.property? name = some target) :
    ∃ children node, ({ registry, memory } : Context).nested target = .ok children ∧
      schema.Offers registry name node ∧ Arranges registry root target.field.arrangement children node := by
  rcases (opens.property?_eq (complete.wellNamed stands.reaches)).mp found with
    ⟨field, declared, rfl, rfl⟩ | ⟨polymorphic, rfl, rfl⟩
  · obtain ⟨children, inner, opened, furnishes⟩ :=
      field_furnishes complete faithful stands declared rfl (opens.place_bind _ field)
    obtain ⟨node, leads⟩ := arrangement_leads furnishes
    exact ⟨children, node, opened, .declared declared leads, arranges_of_leads furnishes leads⟩
  · exact ⟨none, .leaf, nested_of_scalar rfl, .typeProperty polymorphic, .single .scalar⟩

theorem property?_of_offers (complete : root.Complete registry) (faithful : memory.Faithful registry root)
    (stands : Stands registry root place schema) (opens : container.Opens schema place) {name : String} {node : Node}
    (offers : schema.Offers registry name node) :
    ∃ target children, container.property? name = some target ∧
      ({ registry, memory } : Context).nested target = .ok children ∧
      Arranges registry root target.field.arrangement children node := by
  have wellNamed := complete.wellNamed stands.reaches
  cases offers with
  | @declared field _ declared leads =>
    obtain ⟨children, inner, opened, furnishes⟩ :=
      field_furnishes complete faithful stands declared rfl (opens.place_bind _ field)
    exact ⟨_, children, (opens.property?_eq wellNamed).mpr (.inl ⟨field, declared, rfl, rfl⟩), opened,
      arranges_of_leads furnishes leads⟩
  | typeProperty polymorphic =>
    exact ⟨_, none, (opens.property?_eq wellNamed).mpr (.inr ⟨polymorphic, rfl, rfl⟩), nested_of_scalar rfl,
      .single .scalar⟩

namespace Container.Draws

theorem typeProperty_unchanged (draws : container.Draws schema) (polymorphic : container.isPolymorphic = true) :
    ({} : Amendments).typeProperty container = .ok (.text schema.typeProperty) := by
  simp [Amendments.typeProperty, polymorphic, Amendments.setting, Amendments.standIn, draws.taken, draws.noMixin]
  rfl

theorem allowed_of_type (draws : container.Draws schema) (polymorphic : schema.isPolymorphic = true) :
    schema.typeProperty = "" ∨ MemberName.allowed schema.typeProperty = true :=
  Class.checkName_eq_ok.mp (draws.typeProperty polymorphic)

/-- Whatever a container has is found under its name, which is allowed unless it is empty. -/
theorem allowed_of_entry (draws : container.Draws schema) (wellNamed : schema.WellNamed)
    {entry : Option String × Field Schema} (within : entry ∈ container.entries) :
    entry.1 = some entry.2.name ∧ (entry.2.name = "" ∨ MemberName.allowed entry.2.name = true) := by
  rcases draws.field_of_entry within with ⟨declared, named⟩ | ⟨polymorphic, rfl⟩
  · exact ⟨named, wellNamed.name_allowed _ declared⟩
  · exact ⟨rfl, draws.allowed_of_type polymorphic⟩

end Container.Draws

namespace Pointer

theorem tellsType_of_draws (draws : container.Draws schema) (token : String) :
    tellsType {} container token = .ok (container.isPolymorphic && decide (schema.typeProperty = token)) := by
  cases polymorphic : container.isPolymorphic with
  | false =>
    simp only [tellsType, Amendments.isPolymorphic_unchanged, polymorphic, Value.isTruthy]
    rfl
  | true =>
    have told := draws.typeProperty_unchanged polymorphic
    simp only [tellsType, Amendments.isPolymorphic_unchanged, polymorphic, Value.isTruthy, told]
    simp [Value.text?, bind, Except.bind, pure, Except.pure]

theorem tellsType_unchanged (opens : container.Opens schema place) (token : String) :
    tellsType {} container token = .ok (schema.isPolymorphic && decide (schema.typeProperty = token)) := by
  rw [tellsType_of_draws opens.draws, opens.isPolymorphic]

/-- Whether a token is plain below a container, or names a property of one of its subtypes. -/
theorem plain_or_specific (container : Container) (token : String) :
    (∀ subtype name, subtypeAndName? token = some (subtype, name) → container.subtype? subtype = none) ∨
    ∃ subtype name property, subtypeAndName? token = some (subtype, name) ∧ container.subtype? subtype = some property := by
  by_cases plain : ∀ subtype name, subtypeAndName? token = some (subtype, name) → container.subtype? subtype = none
  · exact .inl plain
  · obtain ⟨subtype, name, parts, listed⟩ : ∃ subtype name, subtypeAndName? token = some (subtype, name) ∧
        container.subtype? subtype ≠ none := by simpa using plain
    obtain ⟨property, found⟩ := Option.ne_none_iff_exists'.mp listed
    exact .inr ⟨subtype, name, property, parts, found⟩

/-- A token that names no property of a subtype is looked up as it is. -/
theorem lookUp_of_plain {token : String}
    (plain : ∀ subtype name, subtypeAndName? token = some (subtype, name) → container.subtype? subtype = none) :
    lookUp { registry, memory } container token = ⟨[], .ok (container.property? token)⟩ := by
  have own : (Opening.ofExcept ((({} : Amendments).property? container token).mapError .broken) :
      Opening Fault (Option Property)) = ⟨[], .ok (container.property? token)⟩ := by
    rw [Amendments.property?_unchanged]
    rfl
  unfold lookUp
  cases parts : subtypeAndName? token with
  | none => exact own
  | some both =>
    obtain ⟨subtype, name⟩ := both
    cases polymorphic : container.isPolymorphic with
    | false =>
      simp only [Amendments.isPolymorphic_unchanged, polymorphic, Value.isTruthy, Bool.false_eq_true, ite_false]
      exact own
    | true =>
      have none := plain subtype name parts
      simp only [Amendments.isPolymorphic_unchanged, polymorphic, Value.isTruthy, ite_true, specific?,
        Amendments.subtype?_unchanged container subtype polymorphic, none, mapError_ok]
      exact own

theorem lookUp_plain {token : String}
    (plain : ∀ subtype name, subtypeAndName? token = some (subtype, name) → container.subtype? subtype = none) :
    (lookUp { registry, memory } container token).outcome = .ok (container.property? token) := by
  rw [lookUp_of_plain plain]

theorem lookUp_specific {token subtype name : String} {specific : Container} {property : Property}
    (parts : subtypeAndName? token = some (subtype, name)) (polymorphic : container.isPolymorphic = true)
    (listed : container.subtype? subtype = some property)
    (opened : ({ registry, memory } : Context).nested property = .ok (some specific)) :
    (lookUp { registry, memory } container token).outcome = .ok (specific.property? name) := by
  unfold lookUp
  simp [parts, polymorphic, Value.isTruthy, specific?, listed, bind, opened]

theorem allowed_of_type (opens : container.Opens schema place) (polymorphic : schema.isPolymorphic = true) :
    schema.typeProperty = "" ∨ MemberName.allowed schema.typeProperty = true :=
  opens.draws.allowed_of_type polymorphic

theorem no_colon_in_type (opens : container.Opens schema place) (polymorphic : schema.isPolymorphic = true) :
    ':' ∉ schema.typeProperty.toList :=
  MemberName.no_colon_if_named (allowed_of_type opens polymorphic)

/-- Whatever is found in a container has a name that is allowed, unless it is empty. -/
theorem allowed_of_property? (opens : container.Opens schema place) (wellNamed : schema.WellNamed) {name : String}
    {target : Property} (found : container.property? name = some target) : name = "" ∨ MemberName.allowed name = true := by
  obtain ⟨field, stored, -⟩ := Option.map_eq_some_iff.mp found
  obtain ⟨named, allowed⟩ := opens.draws.allowed_of_entry wellNamed (Entries.mem_of_find? stored)
  obtain rfl : name = field.name := Option.some.inj named
  exact allowed

theorem no_colon_in_offers (wellNamed : schema.WellNamed) (opens : container.Opens schema place) {name : String}
    {node : Node} (offers : schema.Offers registry name node) : ':' ∉ name.toList := by
  cases offers with
  | declared within => exact MemberName.no_colon_if_named (wellNamed.name_allowed _ within)
  | typeProperty polymorphic => exact no_colon_in_type opens polymorphic

theorem leaf_of_typeProperty (wellNamed : schema.WellNamed) (polymorphic : schema.isPolymorphic = true) {node : Node}
    (offers : schema.Offers registry schema.typeProperty node) : node = .leaf := by
  generalize named : schema.typeProperty = name at offers
  cases offers with
  | declared within => exact absurd named.symm (wellNamed.typeProperty_free polymorphic _ within)
  | typeProperty => rfl

theorem subtype_opens (complete : root.Complete registry) (faithful : memory.Faithful registry root)
    (stands : Stands registry root place schema) (opens : container.Opens schema place) {subtype : String}
    {reference : Reference Schema} (listed : (subtype, reference) ∈ schema.subtypes) :
    ∃ property specific inner, container.subtype? subtype = some property ∧ registry.target reference = .ok specific ∧
      ({ registry, memory } : Context).nested property = .ok (some inner) ∧
      Stands registry root (place.below (.subtype subtype)) specific ∧
      inner.Opens specific (place.below (.subtype subtype)) := by
  have found := (opens.subtype?_eq (complete.wellNamed stands.reaches)).mpr ⟨reference, listed, rfl⟩
  obtain ⟨specific, target⟩ := complete.registered stands.reaches (.subtype listed)
  have below := stands.subtype listed target
  have standing := opens.place_bind (.subtype subtype) (Container.subtypeField subtype reference)
  obtain ⟨inner, opened, inside⟩ := nested_opens complete faithful below standing rfl target
  exact ⟨_, specific, inner, found, target, opened, below, inside⟩

theorem polymorphic_of_subtype {subtype : String} {reference : Reference Schema}
    (opens : container.Opens schema place) (listed : (subtype, reference) ∈ schema.subtypes) :
    container.isPolymorphic = true := by
  rw [opens.isPolymorphic, Schema.isPolymorphic]
  cases subtypes : schema.subtypes with
  | nil => simp [subtypes] at listed
  | cons => rfl

theorem names_of_takes {dashAllowed : Bool} (complete : root.Complete registry)
    (faithful : memory.Faithful registry root) (stands : Stands registry root place schema)
    (opens : container.Opens schema place) {token : String} {node : Node}
    (takes : (Node.object schema).Takes registry dashAllowed token node) :
    ∃ target children, Names { registry, memory } container token target children ∧
      Arranges registry root target.field.arrangement children node := by
  have wellNamed := complete.wellNamed stands.reaches
  have tells := tellsType_unchanged opens token
  cases takes with
  | property offers =>
    by_cases telling : schema.isPolymorphic = true ∧ schema.typeProperty = token
    · obtain ⟨polymorphic, rfl⟩ := telling
      obtain rfl := leaf_of_typeProperty wellNamed polymorphic offers
      have found := (opens.property?_eq wellNamed).mpr (.inr ⟨polymorphic, rfl, rfl⟩)
      refine ⟨_, none, .typeProperty ?_ (Amendments.property_unchanged.mpr found) rfl, .single .scalar⟩
      simp [tells, polymorphic]
    · obtain ⟨target, children, found, opened, arranges⟩ := property?_of_offers complete faithful stands opens offers
      have plain := no_subtypeAndName? (no_colon_in_offers wellNamed opens offers)
      refine ⟨target, children, .found ?_ ?_ rfl opened, arranges⟩
      · simpa [tells] using telling
      · rw [lookUp_plain (by simp [plain]), found]
  | @subtypeProperty _ specific subtype name reference _ listed target offers named =>
    obtain ⟨property, _, inner, found, same, nested, below, inside⟩ :=
      subtype_opens complete faithful stands opens listed
    cases target.symm.trans same
    obtain ⟨target, children, has, opened, arranges⟩ := property?_of_offers complete faithful below inside offers
    have allowed := MemberName.no_colon (wellNamed.subtype_allowed _ listed)
    have parts := subtypeAndName?_eq_some.mpr ⟨rfl, allowed.1, allowed.2, named⟩
    refine ⟨target, children, .found ?_ ?_ rfl opened, arranges⟩
    · have telling : ¬ (schema.isPolymorphic = true ∧ schema.typeProperty = subtype ++ ":" ++ name) := by
        rintro ⟨polymorphic, same⟩
        have offered : schema.Offers registry schema.typeProperty .leaf := .typeProperty polymorphic
        have noColon := no_colon_in_offers wellNamed opens offered
        simp [same] at noColon
      simpa [tells] using telling
    · rw [lookUp_specific parts (polymorphic_of_subtype opens listed) found nested, has]

theorem takes_of_names {dashAllowed : Bool} (complete : root.Complete registry)
    (faithful : memory.Faithful registry root) (stands : Stands registry root place schema)
    (opens : container.Opens schema place) {token : String} {target : Property} {children : Option Container}
    (names : Names { registry, memory } container token target children) :
    ∃ node, (Node.object schema).Takes registry dashAllowed token node ∧
      Arranges registry root target.field.arrangement children node := by
  have wellNamed := complete.wellNamed stands.reaches
  have tells := tellsType_unchanged opens token
  cases names with
  | typeProperty told has same =>
    cases same
    obtain ⟨polymorphic, rfl⟩ : schema.isPolymorphic = true ∧ schema.typeProperty = token := by simpa [tells] using told
    rcases (opens.property?_eq wellNamed).mp (Amendments.property_unchanged.mp has) with ⟨field, declared, named, -⟩ | ⟨-, -, rfl⟩
    · exact absurd named (wellNamed.typeProperty_free polymorphic field declared)
    · exact ⟨.leaf, .property (.typeProperty polymorphic), .single .scalar⟩
  | found told looked same nested =>
    cases same
    rcases plain_or_specific container token with plain | ⟨subtype, name, property, parts, found⟩
    · rw [lookUp_plain plain] at looked
      obtain ⟨_, node, opened, offers, arranges⟩ :=
        offers_of_property? complete faithful stands opens (Except.ok.inj looked)
      cases nested.symm.trans opened
      exact ⟨node, .property offers, arranges⟩
    · obtain ⟨reference, listed, -⟩ := (opens.subtype?_eq wellNamed).mp found
      obtain ⟨_, specific, inner, same, target, opened, below, inside⟩ :=
        subtype_opens complete faithful stands opens listed
      cases found.symm.trans same
      rw [lookUp_specific parts (polymorphic_of_subtype opens listed) found opened] at looked
      obtain ⟨_, node, opened, offers, arranges⟩ :=
        offers_of_property? complete faithful below inside (Except.ok.inj looked)
      cases nested.symm.trans opened
      obtain ⟨rfl, -, -, named⟩ := subtypeAndName?_eq_some.mp parts
      exact ⟨node, .subtypeProperty listed target offers named, arranges⟩

end Pointer
end RecordAddress
