import RecordAddress.Proofs.Declarations

/-! Which classes can be used once they are made. Names of fields and subtypes are seen to when a class is defined.
That of the type property is looked at whenever a container is opened, and never before. -/

namespace RecordAddress

theorem succeeds_iff {ε α : Type} {outcome : Except ε α} :
    (∃ result, outcome = .ok result) ↔ ∀ fault, ¬ outcome = .error fault := by
  cases outcome <;> simp

theorem Field.checkName_eq_error {name : String} {fault : Field.Fault} :
    Field.checkName name = .error fault ↔ (name ≠ "" ∧ MemberName.allowed name = false) ∧ fault = .nameNotAllowed name := by
  unfold Field.checkName
  by_cases allowed : name = "" ∨ MemberName.allowed name = true
  · rw [if_pos allowed]
    constructor
    · exact nofun
    · rintro ⟨⟨named, refused⟩, -⟩
      rcases allowed with unnamed | allowed
      · exact absurd unnamed named
      · cases refused.symm.trans allowed
  · rw [if_neg allowed, Except.error.injEq]
    obtain ⟨named, refused⟩ := not_or.mp allowed
    exact ⟨fun same => ⟨⟨named, by simpa using refused⟩, same.symm⟩, fun told => told.2.symm⟩

namespace Container
variable {schema : Schema} {path : String} {place : Option Place}

/-- Whether a container is opened of a schema does not depend on where. -/
theorem ofSchema_of_visible (isSchema : schema.isMixin = false) (visible : schema.hidden.contains Operation.container = false) :
    ofSchema schema path place =
      (if schema.isPolymorphic then (Field.checkName schema.typeProperty).mapError .field else .ok ()).map fun _ =>
        { schema, path, place
          variants := if schema.isPolymorphic then some schema.subtypes else none
          entries := if schema.isPolymorphic then
              Entries.put (some schema.typeProperty) (typeField schema.typeProperty) (declaredEntries schema)
            else declaredEntries schema } := by
  unfold ofSchema
  rw [visible, isSchema]
  cases schema.isPolymorphic with
  | false => rfl
  | true => cases Field.checkName schema.typeProperty <;> rfl

theorem ofSchema_of_hidden (hidden : schema.hidden.contains Operation.container = true) :
    ofSchema schema path place = .error .hidden := by
  unfold ofSchema
  rw [hidden]
  rfl

end Container

namespace Class
variable {classes : List Class} {cls : Class} {name : String}

/-- What is set for the type property, in the class or further up. -/
def typeProperty? (cls : Class) : Option Label :=
  cls.settings?.bind (·.options.typeProperty)

/-- Something else is found where an operation of schemas is looked for. -/
def Hides (cls : Class) (operation : Operation) : Prop :=
  isHidden cls.ancestors operation.key = true

/-- The class tells subtypes apart by a property whose name is not allowed. -/
structure Misnames (cls : Class) (name : String) : Prop where
  polymorphic : cls.outline.isPolymorphic = true
  set : cls.typeProperty? = some (.text name)
  named : name ≠ ""
  refused : MemberName.allowed name = false

/-- Why no container can be opened of a class. -/
inductive Unusable (cls : Class) : Container.Fault → Prop
  | hidden : cls.Hides .container → Unusable cls .hidden
  | misnamed {name : String} : ¬ cls.Hides .container → cls.Misnames name → Unusable cls (.field (.nameNotAllowed name))

theorem usable_iff : (∀ fault, ¬ cls.Unusable fault) ↔ ¬ cls.Hides .container ∧ ∀ name, ¬ cls.Misnames name := by
  constructor
  · intro usable
    have shown : ¬ cls.Hides .container := fun hides => usable _ (.hidden hides)
    exact ⟨shown, fun _ misnames => usable _ (.misnamed shown misnames)⟩
  · rintro ⟨shown, named⟩ fault (hides | ⟨-, misnames⟩)
    · exact shown hides
    · exact named _ misnames

/-- What a schema takes from its settings and its ancestors for its containers. -/
theorem settings_of_schema {definition : Definition} {id : Nat} {ancestors : List Body} {schema : Schema} {declared : Declared}
    (made : definition.schema id ancestors = .ok (schema, declared)) :
    schema.typeProperty =
      (((definition.settings? id ancestors).bind (·.options.typeProperty)).getD (.text "type")).name ∧
    schema.hidden = hiddenOperations ancestors := by
  have sameSetting : (((definition.settings? id ancestors).map Settings.options).getD {}).typeProperty =
      (definition.settings? id ancestors).bind (·.options.typeProperty) := by
    cases definition.settings? id ancestors <;> rfl
  obtain ⟨_, _, _, -, -, -, rfl⟩ := schema_eq_ok made
  exact ⟨by rw [← sameSetting], rfl⟩

theorem Family.settled (family : Family classes) (within : cls ∈ classes) (isSchema : cls.outline.isMixin = false) :
    cls.outline.typeProperty = (cls.typeProperty?.getD (.text "type")).name ∧
    cls.outline.hidden = hiddenOperations cls.ancestors := by
  induction family with
  | base =>
    obtain rfl := List.mem_singleton.mp within
    exact ⟨rfl, rfl⟩
  | define _ _ _ defined ih =>
    rcases List.mem_cons.mp within with rfl | before
    · obtain ⟨ancestors, -, ⟨schema, declared, made, rfl⟩ | ⟨body, -, rfl⟩⟩ := define_cases defined
      · simpa only [typeProperty?, settings?, order, nearestSettings?_cons, Definition.settings?] using settings_of_schema made
      · cases isSchema
    · exact ih before

theorem hidden_iff {order : List Body} {operation : Operation} :
    (hiddenOperations order).contains operation = true ↔ isHidden order operation.key = true := by
  have listed : operation ∈ Operation.all := by cases operation <;> decide
  simp [hiddenOperations, List.mem_filter, listed]

/-- A type property of the default name is fine, so that one which is not was set. -/
theorem misnames_iff (settled : cls.outline.typeProperty = (cls.typeProperty?.getD (.text "type")).name) :
    cls.Misnames name ↔ cls.outline.isPolymorphic = true ∧ cls.outline.typeProperty = name ∧
      name ≠ "" ∧ MemberName.allowed name = false := by
  constructor
  · rintro ⟨polymorphic, set, named, refused⟩
    rw [settled, set]
    exact ⟨polymorphic, rfl, named, refused⟩
  · rintro ⟨polymorphic, rfl, named, refused⟩
    refine ⟨polymorphic, ?_, named, refused⟩
    rw [settled] at named refused ⊢
    cases set : cls.typeProperty? with
    | none =>
      rw [set] at refused
      exact absurd refused (by decide)
    | some label =>
      rw [set] at named
      cases label with
      | text => rfl
      | other | unusable => exact absurd rfl named

theorem unusable_iff (settled : cls.outline.typeProperty = (cls.typeProperty?.getD (.text "type")).name)
    (concealed : cls.outline.hidden = hiddenOperations cls.ancestors) (isSchema : cls.outline.isMixin = false)
    {path : String} {place : Option Place} {fault : Container.Fault} :
    Container.ofSchema cls.outline path place = .error fault ↔ cls.Unusable fault := by
  cases hidden : cls.outline.hidden.contains Operation.container with
  | true =>
    have hides : cls.Hides .container := hidden_iff.mp (concealed ▸ hidden)
    rw [Container.ofSchema_of_hidden hidden]
    constructor
    · rintro ⟨⟩
      exact .hidden hides
    · rintro (- | ⟨shown, -⟩)
      · rfl
      · exact absurd hides shown
  | false =>
    have shown : ¬ cls.Hides .container := by
      intro hides
      rw [concealed, hidden_iff.mpr hides] at hidden
      cases hidden
    rw [Container.ofSchema_of_visible isSchema hidden]
    have misnamed : (∃ name, cls.Misnames name ∧ fault = .field (.nameNotAllowed name)) ↔ cls.Unusable fault := by
      constructor
      · rintro ⟨name, misnames, rfl⟩
        exact .misnamed shown misnames
      · rintro (hides | ⟨-, misnames⟩)
        · exact absurd hides shown
        · exact ⟨_, misnames, rfl⟩
    rw [← misnamed]
    simp only [misnames_iff settled]
    cases polymorphic : cls.outline.isPolymorphic with
    | false => simp [Except.map]
    | true =>
      cases checked : Field.checkName cls.outline.typeProperty with
      | error cause =>
        obtain ⟨⟨named, refused⟩, rfl⟩ := Field.checkName_eq_error.mp checked
        simp [Except.map, named, refused, eq_comm]
      | ok =>
        have allowed := checkName_eq_ok.mp checked
        simp only [ite_true, mapError_ok, Except.map, true_and, reduceCtorEq, false_iff]
        rintro ⟨name, ⟨rfl, named, refused⟩, -⟩
        rcases allowed with unnamed | allowed
        · exact named unnamed
        · cases refused.symm.trans allowed

end Class

/-- A root container is opened once and remembered, unless something else stands where it is looked for. -/
theorem Context.root_eq_error {registry : Registry} {memory : Memory} {schema : Schema} {fault : Container.Fault}
    (isSchema : schema.isMixin = false) :
    ({ registry, memory } : Context).root schema = .error fault ↔
      (schema.hidden.contains Operation.rootContainer = true ∧ fault = .hidden) ∨
      (schema.hidden.contains Operation.rootContainer = false ∧ memory.known? { ground := .schema schema.id } = none ∧
        Container.ofSchema schema "" (some { ground := .schema schema.id }) = .error fault) := by
  have itself : registry.target (.schema schema) = .ok schema := rfl
  rw [Context.root, Amendments.isEmpty_unchanged, if_pos rfl, Container.root, isSchema]
  cases schema.hidden.contains Operation.rootContainer with
  | true => simp [bind, Except.bind, eq_comm]
  | false =>
    cases known : memory.known? { ground := .schema schema.id } with
    | some container => simp [Context.opener, known]
    | none => simp [Context.opener, known, itself, bind, Except.bind]

namespace Session

/-- The fields and the subtypes of a class that was made have names that are allowed. Containers can be opened of it at
any path, as its root container can be, unless the name of its type property is not allowed, which is found out only
then, or something else is found in the place of the operation. -/
theorem classes_are_usable_unless_misnamed (rootLabel : String) (sources : List ClassSource) {cls : Class} {schema : Schema}
    (made : cls ∈ ({ rootLabel } : Session).made sources) (offered : cls.schema? = some schema) :
    (∀ field ∈ schema.fields, Field.checkName field.name = .ok ()) ∧
    (∀ subtype ∈ schema.subtypes, Field.checkName subtype.1 = .ok ()) ∧
    (∀ path place, (∃ container, Container.ofSchema schema path place = .ok container) ↔
      ¬ cls.Hides .container ∧ ∀ name, ¬ cls.Misnames name) ∧
    (∀ path place fault, Container.ofSchema schema path place = .error fault ↔ cls.Unusable fault) ∧
    ∀ (registry : Registry) (memory : Memory) fault, ({ registry, memory } : Context).root schema = .error fault ↔
      (cls.Hides .rootContainer ∧ fault = .hidden) ∨
      (¬ cls.Hides .rootContainer ∧ memory.known? { ground := .schema schema.id } = none ∧ cls.Unusable fault) := by
  obtain ⟨rfl, isSchema⟩ := Class.schema_of_schema? offered
  obtain ⟨classes, family, within⟩ := family_of_made made
  have wellNamed := family.wellNamed within isSchema
  obtain ⟨settled, concealed⟩ := family.settled within isSchema
  have unusable (path : String) (place : Option Place) (fault : Container.Fault) :
      Container.ofSchema cls.outline path place = .error fault ↔ cls.Unusable fault :=
    Class.unusable_iff settled concealed isSchema
  refine ⟨?_, ?_, ?_, unusable, ?_⟩
  · intro field declared
    exact Class.checkName_eq_ok.mpr (wellNamed.name_allowed field declared)
  · intro subtype listed
    exact Class.checkName_eq_ok.mpr (.inr (wellNamed.subtype_allowed subtype listed))
  · intro path place
    rw [← Class.usable_iff, succeeds_iff]
    exact forall_congr' fun fault => not_congr (unusable path place fault)
  · intro registry memory fault
    have hides : cls.outline.hidden.contains Operation.rootContainer = true ↔ cls.Hides .rootContainer := by
      rw [concealed]
      exact Class.hidden_iff
    rw [Context.root_eq_error isSchema, unusable, ← Bool.not_eq_true, hides]

/-- Containers can be opened of events, which are told apart by their kind. -/
theorem events_are_usable :
    ∃ cls schema, cls ∈ ({ rootLabel := "Event" } : Session).made kindsOfEvents ∧ cls.schema? = some schema ∧
      schema.isPolymorphic = true ∧ ∀ path place, ∃ container, Container.ofSchema schema path place = .ok container := by
  have computed : ((({ rootLabel := "Event" } : Session).made kindsOfEvents)[1]?.any fun cls => cls.schema?.any fun schema =>
      schema.isPolymorphic = true ∧ cls.typeProperty? = some (.text "kind") ∧
        Class.isHidden cls.ancestors Operation.container.key = false) = true := by
    decide +kernel
  simp only [Option.any_eq_true, decide_eq_true_eq] at computed
  obtain ⟨cls, made, schema, offered, polymorphic, kind, shown⟩ := computed
  have within := List.mem_of_getElem? made
  obtain ⟨-, -, opened, -, -⟩ := classes_are_usable_unless_misnamed "Event" kindsOfEvents within offered
  have named : ∀ name, ¬ cls.Misnames name := by
    rintro name ⟨-, set, -, refused⟩
    obtain rfl : "kind" = name := by simpa using kind.symm.trans set
    exact absurd refused (by decide)
  refine ⟨cls, schema, within, offered, polymorphic, fun path place => (opened path place).mpr ⟨?_, named⟩⟩
  simp [Class.Hides, shown]

/-- Events that are to be told apart by a property whose name has spaces in it. -/
def spacedKindsOfEvents : List ClassSource := [
  { name := "Opened", label := "Opened", bases := [Schema.base.name], isMixin := false,
    fields := [("by_who", .scalar "string" "" "")], options := none },
  { name := "Event", label := "Event", bases := [Schema.base.name], isMixin := false, fields := [],
    options := some { typeProperty := some "kind of event", subtypes := some [("OPENED", .label "Opened")] } }]

/-- A class with such a type property is made and registered, but can never be used. -/
theorem spaced_kinds_are_found_out_late :
    ∃ cls schema, cls ∈ ({ rootLabel := "Event" } : Session).made spacedKindsOfEvents ∧ cls.schema? = some schema ∧
      (∀ path place, Container.ofSchema schema path place = .error (.field (.nameNotAllowed "kind of event"))) ∧
      ∀ registry : Registry, ({ registry } : Context).root schema = .error (.field (.nameNotAllowed "kind of event")) := by
  have computed : ((({ rootLabel := "Event" } : Session).made spacedKindsOfEvents)[1]?.any fun cls => cls.schema?.any fun schema =>
      schema.isPolymorphic = true ∧ schema.typeProperty = "kind of event" ∧ schema.hidden = []) = true := by
    decide +kernel
  simp only [Option.any_eq_true, decide_eq_true_eq] at computed
  obtain ⟨cls, made, schema, offered, polymorphic, kind, shown⟩ := computed
  obtain ⟨-, isSchema⟩ := Class.schema_of_schema? offered
  have refused : Field.checkName "kind of event" = .error (.nameNotAllowed "kind of event") := by decide
  have never (path : String) (place : Option Place) :
      Container.ofSchema schema path place = .error (.field (.nameNotAllowed "kind of event")) := by
    rw [Container.ofSchema_of_visible isSchema (by rw [shown]; rfl)]
    simp only [polymorphic, ite_true, kind, refused, mapError_error, Except.map]
  refine ⟨cls, schema, List.mem_of_getElem? made, offered, never, fun registry => ?_⟩
  exact (Context.root_eq_error isSchema).mpr (.inr ⟨by rw [shown]; rfl, rfl, never _ _⟩)

end Session
end RecordAddress
