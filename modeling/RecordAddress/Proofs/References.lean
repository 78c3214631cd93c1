import RecordAddress.Proofs.Declarations
import RecordAddress.Proofs.Inheritance
import RecordAddress.Proofs.Mirroring
import RecordAddress.Proofs.Registering
import RecordAddress.Proofs.Trails

/-! What classes refer to. A class is made with references to classes that were made before, and with the names of record
types, under which a registry has classes that were made as well. So every container that is opened below others is that of
such a class. -/

namespace RecordAddress
variable {known larger : Schema → Prop}

/-- A reference to a known class, or by the name of a record type. -/
def Reference.Among (known : Schema → Prop) (reference : Reference Schema) : Prop :=
  ∀ target, reference = .schema target → known target

def Field.Cites (known : Schema → Prop) (field : Field Schema) : Prop :=
  ∀ reference, field.content = .nested reference → reference.Among known

def Options.Cites (known : Schema → Prop) (options : Options Schema) : Prop :=
  ∀ listed, options.subtypes = some (.listed listed) → ∀ subtype ∈ listed, subtype.2.Among known

theorem Reference.Among.mono {reference : Reference Schema} (among : reference.Among known)
    (within : ∀ schema, known schema → larger schema) : reference.Among larger :=
  fun target same => within target (among target same)

theorem Field.Cites.of_arrangement {field given : Field Schema} (cites : given.Cites known)
    (same : field.arrangement = given.arrangement) : field.Cites known := by
  intro reference content
  exact cites reference (by rwa [Field.content, ← same])

theorem Field.arrangement_of_scalar {typeName name mappedKey : String} {field : Field Schema}
    (made : Field.scalar typeName name mappedKey = .ok field) : ∃ type, field.arrangement = .single (.scalar type) := by
  unfold Field.scalar at made
  split at made
  · cases made
  next type _ =>
    obtain ⟨_, -, same⟩ := bind_eq_ok.mp made
    cases same
    exact ⟨type, rfl⟩
  · obtain ⟨_, -, impossible⟩ := bind_eq_ok.mp made
    cases impossible

theorem Field.content_of_collection {kind : Collection} {source : Field.ItemSource Schema} {name mappedKey : String}
    {field : Field Schema} (made : Field.collection kind source name mappedKey = .ok field) :
    ∃ item, source.item? = some item ∧ field.content = item.content := by
  unfold Field.collection at made
  split at made
  · cases made
  next item found =>
    obtain ⟨_, -, same⟩ := bind_eq_ok.mp made
    cases same
    cases kind <;> exact ⟨item, found, rfl⟩

theorem Options.Cites.over {own inherited : Options Schema} (cites : own.Cites known) (further : inherited.Cites known) :
    (own.over inherited).Cites known := by
  intro listed lists
  cases subtypes : own.subtypes with
  | none => exact further listed (by simpa [Options.over, subtypes] using lists)
  | some => exact cites listed (by simpa [Options.over, subtypes] using lists)

namespace Class
variable {classes : List Class} {cls : Class} {definition : Definition} {id : Nat}

/-- A class that refers to known classes only, as do the classes that it takes its fields and its settings from. -/
structure Cites (known : Schema → Prop) (cls : Class) : Prop where
  fields : ∀ body ∈ cls.order, ∀ entry ∈ body.handedDown, entry.2.Cites known
  settings : cls.Sets (Options.Cites known)
  outline : ∀ reference, cls.outline.Refers reference → reference.Among known

theorem Cites.mono (cites : cls.Cites known) (within : ∀ schema, known schema → larger schema) : cls.Cites larger where
  fields body inside entry handed reference content := (cites.fields body inside entry handed reference content).mono within
  settings := cites.settings.mono fun _ all listed lists subtype among => (all listed lists subtype among).mono within
  outline reference refers := (cites.outline reference refers).mono within

theorem cites_base : Class.base.Cites known where
  fields body inside entry handed := by
    obtain rfl := List.mem_singleton.mp inside
    cases handed
  settings body inside settings has := by
    obtain rfl := List.mem_singleton.mp inside
    cases has
    intro own listed
    obtain rfl := List.mem_singleton.mp listed
    exact nofun
  outline reference refers := by rcases refers with ⟨within, -⟩ | within <;> cases within

/-- The fields of its own that a class makes are those that are written in its definition, with their origin. -/
theorem written_of_own {entry : String × Field Schema} (within : entry ∈ definition.own id) :
    ∃ written ∈ definition.fields, entry = (written.1, { written.2 with origin := some ⟨id, written.1⟩ }) := by
  unfold Definition.own at within
  split at within
  · obtain ⟨written, among, rfl⟩ := List.mem_map.mp (Entries.mem_of_ofList (List.mem_of_mem_filter within))
    exact ⟨written, among, rfl⟩
  · obtain ⟨written, among, rfl⟩ := List.mem_map.mp (Entries.mem_of_ofList within)
    exact ⟨written, among, rfl⟩

theorem own_cites (fields : ∀ entry ∈ definition.fields, entry.2.Cites known) :
    ∀ entry ∈ definition.own id, entry.2.Cites known := by
  intro entry within
  obtain ⟨written, among, rfl⟩ := written_of_own within
  exact (fields written among).of_arrangement rfl

/-- A class refers to what its definition and the classes that it draws on refer to. -/
theorem cites_of_define (drawn : definition.DrawnFrom classes) (cites : ∀ cls ∈ classes, cls.Cites known)
    (fields : ∀ entry ∈ definition.fields, entry.2.Cites known)
    (options : ∀ options ∈ definition.options, options.Cites known) (defined : Class.define id definition = .ok cls) :
    cls.Cites known := by
  have sets : cls.Sets (Options.Cites known) :=
    sets_of_define drawn (fun other isKnown => (cites other isKnown).settings) nofun options defined
  obtain ⟨ancestors, linear, made⟩ := define_cases defined
  have own : ∀ entry ∈ definition.own id, entry.2.Cites known := own_cites fields
  have handedDown : ∀ body ∈ ancestors, ∀ entry ∈ body.handedDown, entry.2.Cites known := by
    intro body ancestor
    obtain ⟨base, isBase, inside⟩ := brought_of_linear linear ancestor
    exact (cites base (drawn.bases base isBase)).fields body inside
  rcases made with ⟨schema, declared, made, rfl⟩ | ⟨body, mixin, rfl⟩
  · obtain ⟨listed, style, subtypes, lists, declares, checks, rfl⟩ := schema_eq_ok made
    have declaredCite : ∀ entry ∈ declared.fields, entry.2.Cites known := by
      intro entry within
      obtain ⟨-, given, written, completes⟩ := given_of_declare declares within
      refine Field.Cites.of_arrangement ?_ completes.arrangement
      rcases List.mem_append.mp written with inherited | written
      · obtain ⟨body, ancestor, inside⟩ := List.mem_flatMap.mp inherited
        exact handedDown body (List.mem_reverse.mp ancestor) _ inside
      · exact own _ written
    have subtypesCite : (((definition.settings? id ancestors).map Settings.options).getD {}).Cites known := by
      simpa only [settings?, order, nearestSettings?_cons, Definition.settings?] using sets.options nofun fun _ _ => .over
    refine ⟨?_, sets, ?_⟩
    · intro body inside
      rcases List.mem_cons.mp inside with rfl | ancestor
      · exact declaredCite
      · exact handedDown body ancestor
    · rintro reference (⟨within, content⟩ | within)
      · obtain ⟨entry, declares, rfl⟩ := List.mem_map.mp within
        exact declaredCite entry declares reference content
      · obtain ⟨entries, given, inside⟩ := mem_of_listSubtypes lists (mem_of_checkSubtypes checks within)
        exact subtypesCite entries given _ inside
  · refine ⟨?_, sets, ?_⟩
    · intro other inside
      rcases List.mem_cons.mp inside with rfl | ancestor
      · rw [mixin.handedDown]
        exact own
      · exact handedDown other ancestor
    · rintro reference (⟨within, -⟩ | within) <;> cases within

end Class

namespace Session
variable {labels : Labels} {reference : Reference Schema} {field : Field Schema}

theorem ReferenceSource.among (labelled : ∀ entry ∈ labels, known entry.2.outline) {given : ReferenceSource} (made : given.reference labels = .ok reference) :
    reference.Among known := by
  cases given with
  | label name =>
    obtain ⟨cls, found, same⟩ := bind_eq_ok.mp made
    cases same
    rintro target ⟨⟩
    exact labelled _ (Entries.mem_of_find? (Labels.find_eq_ok found))
  | recordType name =>
    cases made
    exact nofun

mutual
theorem FieldSource.cites (labelled : ∀ entry ∈ labels, known entry.2.outline) {field : Field Schema} :
    ∀ {given : FieldSource}, given.field labels = .ok field → field.Cites known := by
  intro given made
  match given with
  | .scalar typeName name mappedKey =>
    rw [FieldSource.field, mapError_eq_ok] at made
    obtain ⟨type, single⟩ := Field.arrangement_of_scalar made
    intro reference content
    simp [Field.content, single] at content
  | .nested schema name mappedKey =>
    rw [FieldSource.field, bind_eq_ok] at made
    obtain ⟨target, refers, made⟩ := made
    obtain ⟨_, -, same⟩ := bind_eq_ok.mp (mapError_eq_ok.mp made)
    cases same
    rintro reference ⟨⟩
    exact ReferenceSource.among labelled refers
  | .collection kind item name mappedKey =>
    rw [FieldSource.field, bind_eq_ok] at made
    obtain ⟨source, gives, made⟩ := made
    obtain ⟨element, elements, content⟩ := Field.content_of_collection (mapError_eq_ok.mp made)
    rw [Field.Cites, content]
    exact ItemSource.cites labelled elements gives

theorem ItemSource.cites (labelled : ∀ entry ∈ labels, known entry.2.outline) {source : Field.ItemSource Schema}
    {item : Item Schema} (gives : source.item? = some item) :
    ∀ {given : ItemSource}, given.item labels = .ok source →
      ∀ reference, item.content = .nested reference → reference.Among known := by
  intro given made
  match given with
  | .unspecified =>
    cases made
    cases gives
    exact nofun
  | .reference target =>
    obtain ⟨reference, refers, same⟩ := map_eq_ok.mp made
    cases same
    cases gives
    rintro reference ⟨⟩
    exact ReferenceSource.among labelled refers
  | .field inner =>
    obtain ⟨⟨arrangement, _, _, _, _⟩, makes, same⟩ := map_eq_ok.mp made
    have cites := FieldSource.cites labelled makes
    cases same
    cases arrangement with
    | single content =>
      cases gives
      exact cites
    | array | map => cases gives
  | .other =>
    cases made
    cases gives
end

theorem OptionsSource.cites (labelled : ∀ entry ∈ labels, known entry.2.outline) {given : OptionsSource}
    {options : Options Schema} (made : given.options labels = .ok options) : options.Cites known := by
  simp only [OptionsSource.options, bind_eq_ok] at made
  obtain ⟨subtypes, lists, same⟩ := made
  cases same
  intro listed subtypesListed subtype within
  obtain rfl : subtypes = some (.listed listed) := subtypesListed
  cases written : given.subtypes with
  | none =>
    rw [written] at lists
    cases lists
  | some sources =>
    rw [written, Option.mapM_some] at lists
    obtain ⟨_, lists, same⟩ := map_eq_ok.mp lists
    cases same
    obtain ⟨_, lists, same⟩ := bind_eq_ok.mp lists
    cases same
    obtain ⟨source, -, pairs⟩ := mem_of_mapM lists within
    obtain ⟨reference, refers, same⟩ := bind_eq_ok.mp pairs
    cases same
    exact ReferenceSource.among labelled refers

end Session

/-- The base schema and those of the classes. -/
def Class.Outlines (classes : List Class) (schema : Schema) : Prop :=
  schema = Schema.base ∨ ∃ cls ∈ classes, cls.outline = schema

/-- Schemas that are well named and refer to each other only. -/
structure Schema.Closed (known : Schema → Prop) : Prop where
  wellNamed : ∀ schema, known schema → schema.isMixin = false → schema.WellNamed
  refers : ∀ schema reference, known schema → schema.Refers reference → reference.Among known

namespace Session
variable {session : Session} {rootLabel : String} {classes : List Class}

theorem Defines.cites (defines : Defines rootLabel classes session) : ∀ cls ∈ classes, cls.Cites (Class.Outlines classes) := by
  induction defines with
  | start =>
    intro cls within
    cases within
  | failed _ ih => exact ih
  | @made classes session source cls defines defined ih =>
    obtain ⟨-, labelled, -⟩ := defines.family
    have known : ∀ other ∈ classes.reverse ++ [Class.base], other ∈ classes ∨ other = Class.base := by simp
    have outlined : ∀ entry ∈ session.labels, Class.Outlines classes entry.2.outline := by
      intro entry within
      rcases known _ (labelled entry within) with before | base
      · exact .inr ⟨entry.2, before, rfl⟩
      · exact .inl (congrArg Class.outline base)
    have earlier : ∀ other ∈ classes.reverse ++ [Class.base], other.Cites (Class.Outlines classes) := by
      intro other within
      rcases known other within with before | rfl
      · exact ih other before
      · exact Class.cites_base
    obtain ⟨definition, drawn, fields, options, made⟩ := drawn_of_define labelled defined
    have cites : cls.Cites (Class.Outlines classes) := by
      refine Class.cites_of_define drawn earlier ?_ ?_ made
      · intro entry within
        obtain ⟨given, declares⟩ := fields entry within
        exact FieldSource.cites outlined declares
      · intro own within
        obtain ⟨given, gives⟩ := options own within
        exact OptionsSource.cites outlined gives
    have later : ∀ schema, Class.Outlines classes schema → Class.Outlines (classes ++ [cls]) schema :=
      fun schema => Or.imp id fun ⟨other, within, same⟩ => ⟨other, List.mem_append_left _ within, same⟩
    intro other within
    rcases List.mem_append.mp within with before | new
    · exact (ih other before).mono later
    · obtain rfl := List.mem_singleton.mp new
      exact cites.mono later

/-- The classes that are made in a session refer to each other only. -/
theorem outlines_closed (rootLabel : String) (sources : List ClassSource) :
    Schema.Closed (Class.Outlines (({ rootLabel } : Session).made sources)) where
  wellNamed schema outline isSchema := by
    rcases outline with rfl | ⟨cls, made, rfl⟩
    · exact Class.base_wellNamed
    · obtain ⟨classes, family, within⟩ := family_of_made made
      exact family.wellNamed within isSchema
  refers schema reference outline refers := by
    rcases outline with rfl | ⟨cls, made, rfl⟩
    · exact Class.cites_base.outline reference refers
    · exact ((defines_run rootLabel sources).cites cls made).outline reference refers

/-- The registry has classes that were made and no others. -/
theorem registry_knows_outlines (rootLabel : String) (sources : List ClassSource) :
    Knows (Class.Outlines (({ rootLabel } : Session).made sources)) (({ rootLabel } : Session).defining sources).context.registry := by
  intro entry within
  rw [(defines_run rootLabel sources).registry_eq] at within
  obtain ⟨⟨recordType, schema⟩, listed, rfl⟩ := List.mem_map.mp within
  obtain ⟨_, offers, same⟩ := List.mem_map.mp (Entries.mem_of_ofList listed)
  cases same
  obtain ⟨cls, made, offered⟩ := List.mem_filterMap.mp offers
  exact .inr ⟨cls, made, (Class.schema_of_schema? offered).1.symm⟩

end Session

/-! What is opened of classes that are known. -/

variable {registry : Registry} {memory : Memory} {schema : Schema} {container outer inner : Container} {place : Place}
  {segment : Segment} {property : Property}

/-- A container of a known schema. -/
def Container.OpenedFrom (known : Schema → Prop) (container : Container) : Prop :=
  ∃ schema place, known schema ∧ container.Opens schema place

theorem Container.OpenedFrom.described (opened : container.OpenedFrom known) : container.Described := by
  obtain ⟨schema, place, -, opens⟩ := opened
  exact ⟨schema, place, opens⟩

/-- What nested properties and subtypes refer to, the schema refers to. -/
theorem Container.Draws.refers_of_at? {reference : Reference Schema} (draws : container.Draws schema)
    (found : container.at? segment = some property) (content : property.field.content = .nested reference) :
    schema.Refers reference := by
  cases segment with
  | property name =>
    rcases draws.field_of_property? found with ⟨declared, -⟩ | ⟨-, -, telling⟩
    · exact .field declared content
    · rw [telling] at content
      cases content
  | subtype name =>
    obtain ⟨_, stored, rfl⟩ := Option.map_eq_some_iff.mp found
    cases content
    exact .subtype (draws.listed_of_variant (Entries.mem_of_find? stored)).2

namespace Memory

/-- What is remembered after calls that open containers of known schemas, while the registry has nothing but such. -/
inductive ArisesFrom (known : Schema → Prop) : Memory → Prop
  | start : ArisesFrom known {}
  | root {registry : Registry} {memory : Memory} {schema : Schema} {container : Container} : ArisesFrom known memory →
      Session.Knows known registry → known schema → ({ registry, memory } : Context).root schema = .ok container →
      ArisesFrom known (memory.remember container)
  | nested {registry : Registry} {memory : Memory} {place : Place} {outer inner : Container} {segment : Segment}
      {property : Property} : ArisesFrom known memory → Session.Knows known registry → memory.known? place = some outer →
      outer.at? segment = some property → ({ registry, memory } : Context).nested property = .ok (some inner) →
      ArisesFrom known (memory.remember inner)
  | parse {registry : Registry} {memory : Memory} {schema : Schema} {container : Container} (dashAllowed : Bool)
      (given : Value) : ArisesFrom known memory → Session.Knows known registry → container.RootOf schema memory →
      ArisesFrom known (memory.rememberAll (Pointer.parse { registry, memory } container dashAllowed given).opened)
  | child {registry : Registry} {memory : Memory} {schema : Schema} {container : Container} {parent : Pointer}
      (dashAllowed : Bool) (token : String) : ArisesFrom known memory → Session.Knows known registry →
      container.RootOf schema memory → Pointer.Held container memory parent →
      ArisesFrom known (memory.rememberAll (parent.child { registry, memory } dashAllowed token).opened)

/-- All that is remembered was opened of known schemas. -/
def Keeps (known : Schema → Prop) (memory : Memory) : Prop :=
  ∀ place container, memory.known? place = some container → container.OpenedFrom known

theorem ArisesFrom.arises (arises : memory.ArisesFrom known) : memory.Arises := by
  induction arises with
  | start => exact .start
  | root _ _ _ opened ih => exact .root ih opened
  | nested _ _ remembered found opened ih => exact .nested ih remembered found opened
  | parse dashAllowed given _ _ isRoot ih => exact .parse _ dashAllowed given ih isRoot
  | child dashAllowed token _ _ isRoot held ih => exact .child _ dashAllowed token ih isRoot held

theorem Keeps.remember (keeps : memory.Keeps known) (opened : container.OpenedFrom known) :
    (memory.remember container).Keeps known := by
  intro place other remembered
  rcases known?_after memory container place with same | ⟨-, -, new⟩
  · exact keeps place other (same.symm.trans remembered)
  · cases new.symm.trans remembered
    exact opened

theorem Keeps.rememberAll {containers : List Container} (keeps : memory.Keeps known)
    (opened : ∀ container ∈ containers, container.OpenedFrom known) : (memory.rememberAll containers).Keeps known :=
  List.foldlRecOn containers Memory.remember keeps fun _ keeps container within =>
    keeps.remember (opened container within)

end Memory

namespace Context

/-- What is opened stood there already, or is a container of a known schema. -/
theorem known_of_opener {place : Option Place} {path : String} {reference : Reference Schema}
    (knows : Session.Knows known registry) (among : reference.Among known)
    (opened : ({ registry, memory } : Context).opener place path reference = .ok container) :
    (∃ standing, place = some standing ∧ memory.known? standing = some container) ∨
      ∃ target, known target ∧ Container.ofSchema target path place = .ok container := by
  cases remembered : place.bind memory.known? with
  | some other =>
    simp only [opener, remembered, Except.ok.injEq] at opened
    subst opened
    exact .inl (Option.bind_eq_some_iff.mp remembered)
  | none =>
    rw [opener_unknown remembered, bind_eq_ok] at opened
    obtain ⟨target, found, made⟩ := opened
    refine .inr ⟨target, ?_, made⟩
    cases reference with
    | schema schema =>
      cases found
      exact among _ rfl
    | named recordType =>
      cases held : registry.find? (.text recordType) with
      | none => simp [Registry.target, held] at found
      | some holder =>
        simp only [Registry.target, held, Option.elim_some] at found
        cases found
        exact Session.known_of_find? knows held

variable (closed : Schema.Closed known) (knows : Session.Knows known registry) (keeps : memory.Keeps known)
include knows keeps

theorem openedFrom_of_opener {path : String} {reference : Reference Schema} (among : reference.Among known)
    (opened : ({ registry, memory } : Context).opener (some place) path reference = .ok container) :
    container.OpenedFrom known := by
  rcases known_of_opener knows among opened with ⟨_, standing, remembered⟩ | ⟨target, isKnown, made⟩
  · cases standing
    exact keeps place container remembered
  · exact ⟨target, place, isKnown, Container.opens_of_ofSchema made⟩

include closed

theorem openedFrom_nests : Nests (Container.OpenedFrom known) { registry, memory } := by
  rintro outer segment property inner ⟨schema, place, isKnown, opens⟩ found opened
  obtain ⟨reference, content, outcome⟩ := opener_of_nested opened
  rw [opens.place_of_at? found] at outcome
  exact openedFrom_of_opener knows keeps (closed.refers schema reference isKnown (opens.draws.refers_of_at? found content)) outcome

end Context

/-- Where schemas refer to known ones only, nothing else is opened. -/
theorem Memory.ArisesFrom.keeps (closed : Schema.Closed known) (arises : memory.ArisesFrom known) : memory.Keeps known := by
  induction arises with
  | start => exact nofun
  | root _ knows isKnown opened ih =>
    obtain ⟨-, -, outcome⟩ := Context.root_eq_ok.mp opened
    refine ih.remember (Context.openedFrom_of_opener knows ih ?_ outcome)
    rintro target ⟨⟩
    exact isKnown
  | nested arises knows remembered found opened ih =>
    exact ih.remember (Context.openedFrom_nests closed knows ih _ _ _ _ (ih _ _ remembered) found opened)
  | parse dashAllowed given arises knows isRoot ih =>
    obtain ⟨⟨_, _, _, _, _, remembered, _⟩, -⟩ := isRoot.rooted arises.arises.charted
    have nests := Context.openedFrom_nests closed knows ih
    have outer := ih _ _ remembered
    exact ih.rememberAll (Pointer.parse_opens nests outer.described arises.arises.charted.toLasting outer)
  | @child _ _ _ _ parent dashAllowed token arises knows isRoot held ih =>
    obtain ⟨_, _, opens⟩ := isRoot.described
    have charted := arises.arises.charted
    have trailed := (held.firm opens).trailed isRoot charted
    have nests := Context.openedFrom_nests closed knows ih
    have above : ∀ inner ∈ parent.children?, inner.OpenedFrom known := by
      intro inner within
      obtain ⟨⟨_, _, _, _, _, remembered, _⟩, -⟩ := trailed.children inner within
      exact ih _ _ remembered
    exact ih.rememberAll (Pointer.extend_opens nests (held.sturdy opens) above).opened

end RecordAddress
