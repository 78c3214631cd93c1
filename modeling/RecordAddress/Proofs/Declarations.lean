import RecordAddress.Proofs.Defining
import RecordAddress.Proofs.Lasting
import RecordAddress.Proofs.Remembered

/-! What containers keep of declarations. Names of declared fields differ, and none of them is the type property. So
a container has a property for every field, and one for the type property if there are subtypes. -/

namespace RecordAddress

/-- What holds of all options that the settings are made of. -/
def Settings.All (p : Options Schema → Prop) : Settings → Prop
  | .given order => ∀ own ∈ order, p own.2
  | .value options => p options

/-- What is kept where options stand over others holds of what all of them come to. -/
theorem Settings.All.options {p : Options Schema → Prop} {settings : Settings} (all : settings.All p) (nothing : p {})
    (kept : ∀ own inherited, p own → p inherited → p (own.over inherited)) : p settings.options := by
  cases settings with
  | value => exact all
  | given order =>
    induction order with
    | nil => exact nothing
    | cons own rest ih =>
      exact kept _ _ (all own List.mem_cons_self) (ih fun other within => all other (List.mem_cons_of_mem _ within))

theorem Settings.All.mono {p q : Options Schema → Prop} {settings : Settings} (all : settings.All p)
    (weaker : ∀ options, p options → q options) : settings.All q := by
  cases settings with
  | given order => exact fun own within => weaker own.2 (all own within)
  | value options => exact weaker options all

/-- Settings that tell of the type property by a text, if they tell of it at all. -/
def Settings.Tells : Settings → Prop
  | .given order => ∀ own ∈ order, own.2.typeProperty ≠ some .other
  | .value options => options.typeProperty ≠ some .other

theorem Settings.tells_iff {settings : Settings} : settings.Tells ↔ settings.All (·.typeProperty ≠ some .other) := by
  cases settings <;> exact Iff.rfl

theorem Options.over_tells {own inherited : Options Schema} (told : own.typeProperty ≠ some .other)
    (further : inherited.typeProperty ≠ some .other) : (own.over inherited).typeProperty ≠ some .other := by
  cases given : own.typeProperty with
  | none => simpa [Options.over, given] using further
  | some label => simpa [Options.over, given] using told

namespace Class
variable {classes : List Class} {cls : Class} {definition : Definition} {id : Nat} {p : Options Schema → Prop}

theorem settings_of_order {settings : Settings} (has : cls.settings? = some settings) :
    ∃ body ∈ cls.order, body.settings = some settings :=
  List.exists_of_findSome?_eq_some has

/-- What holds of the settings of all classes in the order. -/
def Sets (p : Options Schema → Prop) (cls : Class) : Prop :=
  ∀ body ∈ cls.order, ∀ settings, body.settings = some settings → settings.All p

theorem Sets.options (sets : cls.Sets p) (nothing : p {})
    (kept : ∀ own inherited, p own → p inherited → p (own.over inherited)) :
    p ((cls.settings?.map Settings.options).getD {}) := by
  cases found : cls.settings? with
  | none => exact nothing
  | some settings =>
    obtain ⟨body, inside, has⟩ := settings_of_order found
    exact (sets body inside settings has).options nothing kept

theorem Sets.mono {q : Options Schema → Prop} (sets : cls.Sets p) (weaker : ∀ options, p options → q options) : cls.Sets q :=
  fun body inside settings has => (sets body inside settings has).mono weaker

/-- The ancestors of a class are brought by its bases. -/
theorem brought_of_linear {ancestors : List Body} {body : Body}
    (linear : Linearization.ofBases? Body.id (definition.bases.map order) (definition.bases.map Class.body) = some ancestors)
    (within : body ∈ ancestors) : ∃ base ∈ definition.bases, body ∈ base.order :=
  base_of_brought (Linearization.mem_of_merge linear within)

/-- What holds of the options of a class body and of the settings that it draws on holds of all settings of the class. -/
theorem sets_of_define (drawn : definition.DrawnFrom classes) (sets : ∀ cls ∈ classes, cls.Sets p) (nothing : p {})
    (own : ∀ options ∈ definition.options, p options) (defined : Class.define id definition = .ok cls) : cls.Sets p := by
  have given : ∀ settings, (definition.ownOptions id).map Settings.given = some settings → settings.All p := by
    intro settings has
    obtain ⟨order, together, rfl⟩ := Option.map_eq_some_iff.mp has
    obtain ⟨options, written, rfl⟩ := Option.map_eq_some_iff.mp together
    intro one within
    rcases List.mem_cons.mp within with rfl | extended
    · exact own options written
    · rcases drawn.extended with nothing | ⟨other, known, settings⟩
      · rw [nothing] at extended
        cases extended
      · obtain ⟨body, inside, has⟩ := settings_of_order settings
        exact sets other known body inside _ has one extended
  obtain ⟨ancestors, linear, made⟩ := define_cases defined
  have inherited : ∀ body ∈ ancestors, ∀ settings, body.settings = some settings → settings.All p := by
    intro body ancestor
    obtain ⟨base, isBase, inside⟩ := brought_of_linear linear ancestor
    exact sets base (drawn.bases base isBase) body inside
  intro body inside settings has
  rcases made with ⟨schema, declared, -, rfl⟩ | ⟨itself, mixin, rfl⟩
  · rcases List.mem_cons.mp inside with rfl | ancestor
    · exact given settings has
    · exact inherited body ancestor settings has
  · rcases List.mem_cons.mp inside with rfl | ancestor
    · rcases mixin.settings with own | ⟨-, value⟩
      · exact given settings (own.symm.trans has)
      · cases value.symm.trans has
        exact nothing
    · exact inherited body ancestor settings has

/-- The settings of all classes in the order tell of the type property by texts. -/
def Tells (cls : Class) : Prop :=
  ∀ body ∈ cls.order, ∀ settings, body.settings = some settings → settings.Tells

theorem tells_iff : cls.Tells ↔ cls.Sets (·.typeProperty ≠ some .other) := by
  simp only [Tells, Sets, Settings.tells_iff]

theorem Tells.typeProperty (tells : cls.Tells) :
    ((cls.settings?.map Settings.options).getD {}).typeProperty ≠ some .other :=
  (tells_iff.mp tells).options nofun fun _ _ => Options.over_tells

theorem Family.tells (family : Family classes) : ∀ cls ∈ classes, cls.Tells := by
  induction family with
  | base =>
    intro cls within body inside settings has
    obtain rfl := List.mem_singleton.mp within
    obtain rfl := List.mem_singleton.mp inside
    cases has
    simp [Settings.Tells]
  | define _ _ drawn defined ih =>
    intro cls within
    rcases List.mem_cons.mp within with rfl | before
    · exact tells_iff.mpr (sets_of_define drawn (fun other known => tells_iff.mp (ih other known)) nofun drawn.options defined)
    · exact ih cls before

theorem base_wellNamed : Schema.base.WellNamed where
  names := List.nodup_nil
  name_allowed := nofun
  typeProperty_free := nofun
  subtypes := List.nodup_nil
  subtype_allowed := nofun

/-- Schemas that come from each other are well named. -/
theorem Family.wellNamed (family : Family classes) (within : cls ∈ classes) (isSchema : cls.outline.isMixin = false) :
    cls.outline.WellNamed := by
  induction family with
  | base =>
    obtain rfl := List.mem_singleton.mp within
    exact base_wellNamed
  | define family older drawn defined ih =>
    rcases List.mem_cons.mp within with rfl | before
    · have tells := (family.define older drawn defined).tells cls within
      exact wellNamed_of_define defined isSchema tells.typeProperty
    · exact ih before

end Class

namespace Container
variable {schema : Schema} {path : String} {place : Option Place} {container : Container}

/-- The properties of a container that is opened from a schema: the declared fields, and after them the type property
if there are subtypes. -/
theorem entries_of_ofSchema (wellNamed : schema.WellNamed) (built : ofSchema schema path place = .ok container) :
    container.entries = declaredEntries schema ++
      if schema.isPolymorphic then [(some schema.typeProperty, typeField schema.typeProperty)] else [] := by
  obtain ⟨-, -, rfl⟩ := ofSchema_eq_ok built
  cases polymorphic : schema.isPolymorphic with
  | false => simp
  | true =>
    have free : some schema.typeProperty ∉ (declaredEntries schema).keys := by
      intro within
      simp only [declaredEntries, Entries.keys, List.map_map, List.mem_map, Function.comp_apply, Option.some.injEq] at within
      obtain ⟨field, declared, same⟩ := within
      exact wellNamed.typeProperty_free polymorphic field declared same
    simpa using Entries.put_of_absent free

theorem names_of_ofSchema (wellNamed : schema.WellNamed) (built : ofSchema schema path place = .ok container) :
    ({} : Amendments).names container = .ok ((schema.fields.map fun field => .text field.name) ++
      if schema.isPolymorphic then [.text schema.typeProperty] else []) := by
  have listed : ({} : Amendments).names container = .ok (container.entries.map (({} : Amendments).nameIn container)) := by
    simp only [Amendments.names, Amendments.setAt?_unchanged]
  rw [listed, entries_of_ofSchema wellNamed built, List.map_append, declaredEntries, List.map_map]
  cases schema.isPolymorphic <;> rfl

theorem keys_of_ofSchema (wellNamed : schema.WellNamed) (built : ofSchema schema path place = .ok container) :
    container.entries.keys.Nodup := by
  have names : (schema.fields.map Field.name ++ if schema.isPolymorphic then [schema.typeProperty] else []).Nodup := by
    cases polymorphic : schema.isPolymorphic with
    | false => simpa using wellNamed.names
    | true =>
      refine List.nodup_append.mpr ⟨wellNamed.names, List.nodup_singleton _, ?_⟩
      intro name declared other telling
      obtain ⟨field, within, rfl⟩ := List.mem_map.mp declared
      obtain rfl := List.mem_singleton.mp telling
      exact wellNamed.typeProperty_free polymorphic field within
  have same : container.entries.keys =
      (schema.fields.map Field.name ++ if schema.isPolymorphic then [schema.typeProperty] else []).map some := by
    rw [entries_of_ofSchema wellNamed built]
    cases schema.isPolymorphic <;> simp [Entries.keys, declaredEntries]
  rw [same]
  exact names.map fun _ _ => Option.some.inj

/-- A container finds each of its properties under its name. -/
theorem property_of_entry (distinct : container.entries.keys.Nodup) {name : String} {field : Field Schema}
    (within : (some name, field) ∈ container.entries) :
    ({} : Amendments).property container name = .ok (container.bind (.property name) field) := by
  refine Amendments.property_unchanged.mpr ?_
  rw [property?, Entries.find?_of_nodup distinct within, Option.map_some]

theorem subtype_of_ofSchema (wellNamed : schema.WellNamed) (built : ofSchema schema path place = .ok container)
    {name : String} {reference : Reference Schema} (listed : (name, reference) ∈ schema.subtypes) :
    ({} : Amendments).subtype container name = .ok (container.bind (.subtype name) (subtypeField name reference)) := by
  obtain ⟨-, -, rfl⟩ := ofSchema_eq_ok built
  have polymorphic : schema.isPolymorphic = true := by
    cases given : schema.subtypes with
    | nil =>
      rw [given] at listed
      cases listed
    | cons => simp [Schema.isPolymorphic, given]
  have found := Entries.find?_of_nodup wellNamed.subtypes listed
  simp only [Amendments.subtype, Amendments.askSubtypes, Amendments.ask, Amendments.setAt?_unchanged, subtype?,
    isPolymorphic, polymorphic, ite_true, Option.isSome_some, Option.getD_some, found]
  rfl

end Container

namespace Context
variable {registry : Registry} {memory : Memory} {property : Property} {reference : Reference Schema} {target : Schema}
  {inner : Container} {place : Place}

/-- What is nested in a property is opened from the schema that it refers to, if no container is open there. -/
theorem nested_of_built (content : property.field.content = .nested reference)
    (found : registry.target reference = .ok target)
    (built : Container.ofSchema target property.nestedPath property.place = .ok inner)
    (unknown : property.place.bind memory.known? = none) :
    ({ registry, memory } : Context).nested property = .ok (some inner) := by
  have opens : ({ registry, memory } : Context).opener property.place property.nestedPath reference = .ok inner := by
    rw [opener_unknown unknown, found, ← built]
    rfl
  simp only [nested, Amendments.isEmpty_unchanged, ite_true, Property.nested, content, opens]
  rfl

/-- A container that was opened at the place of a property is met there, whatever the property refers to. -/
theorem nested_of_remembered {later : Memory} (content : property.field.content = .nested reference)
    (standing : property.place = some place) (same : inner.place = some place) (keeps : memory.keeps = true)
    (unknown : memory.known? place = none) (grows : (memory.remember inner).Grows later) :
    ({ registry, memory := later } : Context).nested property = .ok (some inner) := by
  have kept : (memory.remember inner).known? place = some inner := by
    rw [Memory.known?_remember keeps same, if_pos rfl, unknown]
    rfl
  have met : later.known? place = some inner := grows place inner kept
  simp only [nested, Amendments.isEmpty_unchanged, ite_true, Property.nested, content, opener, standing, Option.bind_some,
    met]
  rfl

end Context

namespace Container
variable {schema : Schema} {path : String} {place : Option Place} {container : Container}

/-- A property of a container under its name, with what the field declares. -/
def Offers (container : Container) (name : String) (field : Field Schema) : Prop :=
  ∃ property summary, ({} : Amendments).property container name = .ok property ∧ property.container = some container ∧
    property.name = name ∧ PropertySummary.of {} property = .ok summary ∧ summary.Describes field

theorem offers_of_entry (distinct : container.entries.keys.Nodup) {name : String} {field : Field Schema}
    (named : field.name = name) (within : (some name, field) ∈ container.entries) : container.Offers name field := by
  obtain ⟨summary, told, describes⟩ := PropertySummary.of_unchanged (container.bind (.property name) field)
  exact ⟨_, summary, property_of_entry distinct within, rfl, named, told, describes⟩

end Container

namespace Session

/-- A container of a schema has a property for each declared field, under its name and with what the field declares,
and one for the type property if there are subtypes. Below each subtype it has the container of the schema that the
subtype refers to when it is first asked for that, and keeps it whatever is registered later. -/
theorem containers_keep_declarations (rootLabel : String) (sources : List ClassSource) {cls : Class} {schema : Schema}
    (made : cls ∈ ({ rootLabel } : Session).made sources) (offered : cls.schema? = some schema) {path : String}
    {place : Option Place} {container : Container} (built : Container.ofSchema schema path place = .ok container) :
    (schema.fields.map Field.name).Nodup ∧
    (schema.isPolymorphic = true → ∀ field ∈ schema.fields, field.name ≠ schema.typeProperty) ∧
    ({} : Amendments).names container = .ok ((schema.fields.map fun field => .text field.name) ++
      if schema.isPolymorphic then [.text schema.typeProperty] else []) ∧
    (∀ field ∈ schema.fields, container.Offers field.name field) ∧
    (schema.isPolymorphic = true → container.Offers schema.typeProperty (Container.typeField schema.typeProperty)) ∧
    ∀ subtype reference, (subtype, reference) ∈ schema.subtypes →
      ∃ property, ({} : Amendments).subtype container subtype = .ok property ∧ property.name = subtype ∧
        property.container = some container ∧ property.place = place.map (·.below (.subtype subtype)) ∧
        ∀ (registry : Registry) (memory : Memory) target inner, registry.target reference = .ok target →
          Container.ofSchema target (path ++ subtype ++ ".") property.place = .ok inner →
          property.place.bind memory.known? = none →
          ({ registry, memory } : Context).nested property = .ok (some inner) ∧
          (property.place.isSome = true → memory.keeps = true → ∀ (present : Registry) (later : Memory),
            (memory.remember inner).Grows later →
            ({ registry := present, memory := later } : Context).nested property = .ok (some inner)) := by
  obtain ⟨rfl, isSchema⟩ := Class.schema_of_schema? offered
  obtain ⟨family, -, -⟩ := (defines_run rootLabel sources).family
  have wellNamed := family.wellNamed (List.mem_append_left _ (List.mem_reverse.mpr made)) isSchema
  have distinct := Container.keys_of_ofSchema wellNamed built
  have entries := Container.entries_of_ofSchema wellNamed built
  refine ⟨wellNamed.names, wellNamed.typeProperty_free, Container.names_of_ofSchema wellNamed built, ?_, ?_, ?_⟩
  · intro field declared
    refine Container.offers_of_entry distinct rfl ?_
    rw [entries]
    exact List.mem_append_left _ (List.mem_map.mpr ⟨field, declared, rfl⟩)
  · intro polymorphic
    refine Container.offers_of_entry distinct rfl ?_
    rw [entries, if_pos polymorphic]
    exact List.mem_append_right _ (List.mem_singleton_self _)
  · intro subtype reference listed
    have standing := Container.place_of_ofSchema built
    refine ⟨_, Container.subtype_of_ofSchema wellNamed built listed, rfl, rfl, by simp [Container.bind, standing], ?_⟩
    intro registry memory target inner found opened unknown
    obtain ⟨-, -, rfl⟩ := Container.ofSchema_eq_ok built
    refine ⟨Context.nested_of_built rfl found opened unknown, fun present keeps registry later grows => ?_⟩
    obtain ⟨there, standing⟩ := Option.isSome_iff_exists.mp present
    have same := (Container.place_of_ofSchema opened).trans standing
    rw [standing] at unknown
    exact Context.nested_of_remembered rfl standing same keeps unknown grows

/-- Events, which are told apart by their kind. -/
def kindsOfEvents : List ClassSource := [
  { name := "Opened", label := "Opened", bases := [Schema.base.name], isMixin := false,
    fields := [("by_who", .scalar "string" "" "")], options := none },
  { name := "Event", label := "Event", bases := [Schema.base.name], isMixin := false,
    fields := [("happened_on", .scalar "datetime" "" "")],
    options := some { typeProperty := some "kind", subtypes := some [("OPENED", .label "Opened")] } }]

theorem event_has_its_kind :
    let place : Place := { ground := .schema 2 }
    ∃ cls schema container, cls ∈ ({ rootLabel := "Event" } : Session).made kindsOfEvents ∧ cls.schema? = some schema ∧
      Container.ofSchema schema "events." (some place) = .ok container ∧
      ({} : Amendments).names container = .ok [.text "happenedOn", .text "kind"] ∧
      (∀ field ∈ schema.fields, container.Offers field.name field) ∧
      container.Offers "kind" (Container.typeField "kind") ∧
      ∃ property reference target inner, ({} : Amendments).subtype container "OPENED" = .ok property ∧
        ("OPENED", reference) ∈ schema.subtypes ∧ Registry.target {} reference = .ok target ∧
        Container.ofSchema target "events.OPENED." property.place = .ok inner ∧
        ({} : Context).nested property = .ok (some inner) ∧
        ({ memory := Memory.remember {} inner } : Context).nested property = .ok (some inner) := by
  intro place
  have computed : ((({ rootLabel := "Event" } : Session).made kindsOfEvents)[1]?.any fun cls => cls.schema?.any fun schema =>
      (Container.ofSchema schema "events." (some place)).toOption.any fun _ =>
        schema.fields.map Field.name = ["happenedOn"] ∧ schema.isPolymorphic = true ∧ schema.typeProperty = "kind" ∧
        (schema.subtypes.any fun subtype => subtype.1 = "OPENED" && (Registry.target {} subtype.2).toOption.any fun target =>
          (Container.ofSchema target "events.OPENED." (some (place.below (.subtype "OPENED")))).toOption.isSome)) = true := by
    decide +kernel
  simp only [Option.any_eq_true, decide_eq_true_eq, List.any_eq_true, Bool.and_eq_true, toOption_eq_some] at computed
  obtain ⟨cls, made, schema, offered, container, opened, fields, polymorphic, kind, subtype, listed, named, target, refers,
    builds⟩ := computed
  have within := List.mem_of_getElem? made
  obtain ⟨-, -, names, offers, telling, nests⟩ := containers_keep_declarations "Event" kindsOfEvents within offered opened
  have texts : (schema.fields.map fun field => Value.text field.name) = [.text "happenedOn"] := by
    have mapped := congrArg (List.map Value.text) fields
    rwa [List.map_map] at mapped
  rw [texts, if_pos polymorphic, kind] at names
  obtain ⟨name, reference⟩ := subtype
  obtain rfl : name = "OPENED" := named
  obtain ⟨inner, built⟩ := Option.isSome_iff_exists.mp builds
  obtain ⟨property, has, -, -, standing, nested⟩ := nests "OPENED" reference listed
  have innerOpened : Container.ofSchema target "events.OPENED." property.place = .ok inner := by
    rw [standing]
    exact toOption_eq_some.mp built
  obtain ⟨first, kept⟩ := nested {} {} target inner refers innerOpened (by rw [standing]; rfl)
  have later := kept (by rw [standing]; rfl) rfl {} _ (.refl _)
  exact ⟨cls, schema, container, within, offered, opened, names, offers, kind ▸ telling polymorphic, property, reference,
    target, inner, has, listed, refers, innerOpened, first, later⟩

/-- What opens an event is looked at before another class takes its record type over. -/
def reopened : List Step := [
  declaring "Opened" [("by_who", .scalar "string" "" "")],
  .define { name := "Event", label := "Event", bases := [Schema.base.name], isMixin := false, fields := []
            options := some { subtypes := some [("OPENED", .recordType "Opened")] } },
  .container "Event" none [.subtype "OPENED"] none,
  .define { name := "Late", label := "Late", bases := [Schema.base.name], isMixin := false
            fields := [("reason", .scalar "string" "" "")], options := some { recordType := some (some "Opened") } }]

/-- Once a subtype was looked at, its container stays the former one though the record type has changed hands. -/
theorem former_subtype_is_kept :
    let session := ({ rootLabel := "Event" } : Session).visiting reopened
    let context : Context := { registry := session.context.registry, memory := session.context.memory }
    ∃ schema container property reference target inner, session.Lists schema ∧ context.root schema = .ok container ∧
      ("OPENED", reference) ∈ schema.subtypes ∧ ({} : Amendments).subtype container "OPENED" = .ok property ∧
      context.registry.target reference = .ok target ∧
      Container.ofSchema target "OPENED." property.place = .ok inner ∧ context.nested property ≠ .ok (some inner) := by
  intro session context
  have computed : ((context.registry.find? (.text "Event")).any fun schema =>
      (context.root schema).toOption.any fun container =>
        (({} : Amendments).subtype container "OPENED").toOption.any fun property =>
          schema.subtypes.any fun subtype => subtype.1 = "OPENED" &&
            (context.registry.target subtype.2).toOption.any fun target =>
              (Container.ofSchema target "OPENED." property.place).toOption.any fun inner =>
                (context.nested property).toOption.any fun children => children.any fun former =>
                  decide (former.entries.keys ≠ inner.entries.keys)) = true := by
    decide +kernel
  simp only [Option.any_eq_true, Bool.and_eq_true, List.any_eq_true, decide_eq_true_eq, toOption_eq_some] at computed
  obtain ⟨schema, found, container, opened, property, has, subtype, listed, named, target, refers, inner, built, children,
    nested, former, same, differ⟩ := computed
  obtain ⟨name, reference⟩ := subtype
  obtain rfl : name = "OPENED" := named
  refine ⟨schema, container, property, reference, target, inner, .inr (Registry.mem_of_find? found), opened, listed, has,
    refers, built, fun kept => ?_⟩
  obtain rfl : children = some inner := Except.ok.inj (nested.symm.trans kept)
  cases same
  exact differ rfl

end Session
end RecordAddress
