import RecordAddress.Proofs.Declarations
import RecordAddress.Proofs.Inheritance
import RecordAddress.Proofs.Removing
import RecordAddress.Proofs.Resolution

/-! Properties that are held in one place. Mappings hold properties under their names, which classes keep apart, and
objects under their mapped keys, which nothing keeps apart. What a property of a subtype is held in is the object that
also holds the common ones. -/

namespace RecordAddress
open Value

/-- Locations make up their path from their tokens. -/
def Value.Derives (holder : Value) (key other : String) : Prop :=
  (∃ tokens attributes, holder = location tokens attributes) ∧ key = tokensKey ∧ other = pathKey

namespace Access
variable {change : Edit} {holder edited : Value} {name : String} {mappedKey : Label} {collection : Option Collection}

/-- What becomes of one property of a mapping when another one is changed. -/
theorem entry_beside_write (mapping : holder.isMapping = true)
    (written : (property (.text name) mappedKey collection).write change holder = .ok edited)
    (other : String) (otherKey : Label) (kind : Option Collection) :
    ∃ stored, (property (.text other) otherKey kind).read {} 0 holder = .ok stored ∧
      (property (.text other) otherKey kind).read {} 0 edited =
        .ok (if name = other then change.value?.getD .null else stored) := by
  have own : holder.isOwn = true := by cases holder <;> first | rfl | cases mapping
  have read (entries : Entries Value) : (property (.text other) otherKey kind).read {} 0 (dict entries) =
      .ok ((Entries.find? other entries).getD .null) := rfl
  cases (write_eq_ok own).mp written with
  | put given =>
    refine ⟨_, read _, ?_⟩
    rw [given, read, Entries.find?_put]
    split <;> rfl
  | erased removed =>
    subst removed
    refine ⟨_, read _, ?_⟩
    rw [read, Entries.find?_erase]
    split <;> rfl
  | set | tokens | further => cases mapping

/-- What becomes of one attribute of an object when another one is changed. -/
theorem attribute_beside_write {key : String} (own : holder.isOwn = true) (unmapped : holder.isMapping = false)
    (written : (property (.text name) (.text key) collection).write change holder = .ok edited)
    (otherName : Label) (other : String) (kind : Option Collection) :
    ∃ stored, (property otherName (.text other) kind).read {} 0 holder = .ok stored ∧
      (¬ holder.Derives key other → (property otherName (.text other) kind).read {} 0 edited =
        .ok (if key = other then change.value?.getD .null else stored)) := by
  have read (tokens : Value) (attributes : Entries Value) :
      (property otherName (.text other) kind).read {} 0 (location tokens attributes) =
        .ok (if other = pathKey then text tokens.toLocation.text else if other = tokensKey then tokens
          else (Entries.find? other attributes).getD (({} : Context).ofLocation other)) := rfl
  cases (write_eq_ok own).mp written with
  | put | erased => cases unmapped
  | set =>
    have read (attributes : Entries Value) : (property otherName (.text other) kind).read {} 0 (object attributes) =
        .ok ((Entries.find? other attributes).getD .null) := rfl
    refine ⟨_, read _, fun _ => ?_⟩
    rw [read, Entries.find?_put]
    split <;> rfl
  | tokens =>
    refine ⟨_, read _ _, fun independent => ?_⟩
    have apart : other ≠ pathKey := fun same => independent ⟨⟨_, _, rfl⟩, rfl, same⟩
    rw [read, if_neg apart, if_neg apart]
    by_cases same : other = tokensKey
    · rw [if_pos same, if_pos same.symm]
    · rw [if_neg same, if_neg same, if_neg (Ne.symm same)]
  | further path parts =>
    refine ⟨_, read _ _, fun _ => ?_⟩
    rw [read, Entries.find?_put]
    by_cases same : key = other
    · subst same
      rw [if_neg path, if_neg parts, if_pos rfl, if_pos rfl, Option.getD_some]
    · rw [if_neg same, if_neg same]

end Access

namespace Pointer
variable {registry : Registry} {memory : Memory} {container : Container} {schema : Schema} {place : Place}
  {parent pointer other : Pointer} {token name : String} {target : Property} {change : Edit} {record holder after prior : Value}

/-- The pointer is what another one became when it was extended by the token, at some time. -/
def Extends (pointer parent : Pointer) (token : String) : Prop :=
  ∃ (registry : Registry) (former : Memory) (dashAllowed : Bool), former.Lasting ∧
    (parent.child { registry, memory := former } dashAllowed token).outcome = .ok pointer

/-- Below an object there are properties, of its own or of one of its subtypes. -/
theorem Extends.property (extended : pointer.Extends parent token) (awaited : parent.next {} = .property container)
    (opens : container.Opens schema place) :
    ∃ target children, pointer = .property parent token target children ∧
      ((container.property? token = some target ∧ target.name = token) ∨
        ∃ subtype name property, ∃ (specific : Container) (specificSchema : Schema), subtypeAndName? token = some (subtype, name) ∧
          container.subtype? subtype = some property ∧ specific.Opens specificSchema (place.below (.subtype subtype)) ∧
          specific.property? name = some target ∧ target.name = name) := by
  obtain ⟨registry, former, dashAllowed, lasting, made⟩ := extended
  obtain ⟨_, step⟩ : ∃ opened, Step registry former dashAllowed parent token pointer opened := ⟨_, step_of_extend made⟩
  cases step with
  | position array => cases awaited.symm.trans array
  | entry map => cases awaited.symm.trans map
  | @property _ target children _ object yields =>
    cases awaited.symm.trans object
    refine ⟨target, children, rfl, ?_⟩
    cases yields with
    | typeProperty _ found | own _ _ found => exact .inl ⟨found, name_of_property? opens found⟩
    | ofSubtype _ parts listed inside found =>
      obtain ⟨⟨_, specificOpens⟩, -⟩ := specific_opens lasting opens listed inside
      exact .inr ⟨_, _, _, _, _, parts, listed, specificOpens, found, name_of_property? specificOpens found⟩

theorem qualified_inj {subtype other name rest : String} (noColon : ':' ∉ subtype.toList) (otherNoColon : ':' ∉ other.toList)
    (same : subtype ++ ":" ++ name = other ++ ":" ++ rest) : subtype = other ∧ name = rest := by
  have chars : subtype.toList ++ ':' :: name.toList = other.toList ++ ':' :: rest.toList := by
    simpa using congrArg String.toList same
  obtain ⟨first, second⟩ := cut_inj noColon otherNoColon chars
  exact ⟨String.toList_inj.mp first, String.toList_inj.mp second⟩

theorem no_colon_in_property (opens : container.Opens schema place) (wellNamed : schema.WellNamed)
    (found : container.property? name = some target) : ':' ∉ name.toList :=
  MemberName.no_colon_if_named (allowed_of_property? opens wellNamed found)

/-- Names have no colons in them, so that none of them is taken for a property of a subtype. -/
theorem Extends.own (extended : pointer.Extends parent name) (awaited : parent.next {} = .property container)
    (opens : container.Opens schema place) (wellNamed : schema.WellNamed) (found : container.property? name = some target) :
    ∃ children, pointer = .property parent name target children := by
  obtain ⟨reached, children, rfl, ⟨same, -⟩ | ⟨_, _, _, _, _, parts, -⟩⟩ := extended.property awaited opens
  · cases same.symm.trans found
    exact ⟨children, rfl⟩
  · cases (no_subtypeAndName? (no_colon_in_property opens wellNamed found)).symm.trans parts

/-- What is read beside a property that is changed is read in what becomes of the object. -/
theorem beside_edit {step last : Access} (ends : pointer.EndsWith step) (otherEnds : other.EndsWith last)
    (siblings : other.parent = pointer.parent)
    (own : ∀ met ∈ Route.trace { registry, memory } (pointer.parent.route {}) record, met.isOwn = true)
    (stands : pointer.parent.get { registry, memory } record = .ok holder) (isSet : holder.isUnset = false)
    (done : pointer.edit { registry, memory } change record = (after, .ok prior)) :
    holder.isOwn = true ∧ pointer.amend { registry, memory } change record = {} ∧
    ∃ edited, step.write change holder = .ok edited ∧
      (∀ value, other.get { registry, memory } record = .ok value ↔ last.read {} 0 holder = .ok value) ∧
      ∀ present later value, other.get { registry := present, memory := later } after = .ok value ↔ last.read {} 0 edited = .ok value := by
  obtain ⟨place, store, edited, site, ownPlace, -, written, stored⟩ := site_of_edit ends done own
  obtain rfl : place = holder := by
    have got := mapError_eq_ok.mp stands
    rcases site.read_place registry memory with here | ⟨nothing, -⟩
    · exact Except.ok.inj (here.symm.trans got)
    · cases nothing.symm.trans got
      cases isSet
  obtain ⟨before, kept⟩ := Access.holder_of_write ownPlace written
  obtain ⟨again, siteAfter⟩ : ∃ again, Route.Site (pointer.parent.route {}) after edited again := by
    cases given : change.value? with
    | some value =>
      exact ⟨_, .found (site.again before kept given stored).1 fun _ => (set_of_holder kept).1⟩
    | none =>
      obtain rfl : change = .remove := by cases change <;> first | rfl | cases given
      obtain ⟨again, siteAfter, -⟩ := site.after_removal ownPlace written stored
      exact ⟨again, siteAfter⟩
  rw [← siblings] at site siteAfter
  exact ⟨ownPlace, amend_at ends (siblings ▸ site) ownPlace, edited, written, fun _ => get_at otherEnds site ownPlace,
    fun _ _ _ => get_at otherEnds siteAfter (own_of_holder kept)⟩

end Pointer

/-- Two properties are only held under one mapped key if one of them is given a key that is not its own, or is the type
property. -/
theorem Container.Opens.shares_mapped_key {container : Container} {schema : Schema} {place : Place} {name other : String}
    {target beside : Property} (opens : container.Opens schema place) (wellNamed : schema.WellNamed)
    (keys : (schema.fields.map Field.key).Nodup) (found : container.property? name = some target)
    (foundToo : container.property? other = some beside) (differ : name ≠ other)
    (same : target.field.mappedKey = beside.field.mappedKey) :
    target.field.mappedKey ≠ target.field.key ∨ beside.field.mappedKey ≠ beside.field.key ∨
      (schema.isPolymorphic = true ∧ (schema.typeProperty = name ∨ schema.typeProperty = other)) := by
  rcases (opens.property?_eq wellNamed).mp found with ⟨field, declared, rfl, rfl⟩ | ⟨polymorphic, rfl, -⟩
  · rcases (opens.property?_eq wellNamed).mp foundToo with ⟨second, declaredToo, rfl, rfl⟩ | ⟨polymorphic, rfl, -⟩
    · by_contra plain
      simp only [not_or, not_not] at plain
      have sameKey : field.key = second.key := plain.1.symm.trans (same.trans plain.2.1)
      obtain rfl := List.inj_on_of_nodup_map keys declared declaredToo sameKey
      exact differ rfl
    · exact .inr (.inr ⟨polymorphic, .inr rfl⟩)
  · exact .inr (.inr ⟨polymorphic, .inl rfl⟩)

namespace Session
open Pointer

variable {cls : Class} {schema : Schema} {path : String} {place : Place} {container : Container} {parent : Pointer}
  {registry : Registry} {memory : Memory} {record holder after prior : Value} {change : Edit}

/-- A change of one property of an object, other than a mapping, leaves the others as they are, unless they have the same
mapped key. Those read what was written. Fields are only given such keys explicitly, and the type property has its name
for one. -/
theorem attributes_alias_by_mapped_keys (rootLabel : String) (sources : List ClassSource)
    (made : cls ∈ ({ rootLabel } : Session).made sources) (offered : cls.schema? = some schema)
    (built : Container.ofSchema schema path (some place) = .ok container) (awaited : parent.next {} = .property container)
    {name other : String} {target beside : Property} (found : container.property? name = some target)
    (foundToo : container.property? other = some beside) (differ : name ≠ other) {pointer otherPointer : Pointer}
    (extended : pointer.Extends parent name) (extendedToo : otherPointer.Extends parent other)
    (stands : parent.get { registry, memory } record = .ok holder) (object : holder.isObject = true)
    (unmapped : holder.isMapping = false)
    (own : ∀ met ∈ Route.trace { registry, memory } (parent.route {}) record, met.isOwn = true)
    (done : pointer.edit { registry, memory } change record = (after, .ok prior)) :
    let key := target.field.mappedKey
    let otherKey := beside.field.mappedKey
    pointer.amend { registry, memory } change record = {} ∧
    (∃ stored, otherPointer.get { registry, memory } record = .ok stored ∧
      (key ≠ otherKey → ¬ holder.Derives key otherKey → ∀ present later,
        otherPointer.get { registry := present, memory := later } after = .ok stored)) ∧
    (key = otherKey →
      (∀ present later, otherPointer.get { registry := present, memory := later } after = .ok (change.value?.getD .null)) ∧
      (key ≠ target.field.key ∨ otherKey ≠ beside.field.key ∨
        (schema.isPolymorphic = true ∧ (schema.typeProperty = name ∨ schema.typeProperty = other)))) := by
  intro key otherKey
  obtain ⟨rfl, isSchema⟩ := Class.schema_of_schema? offered
  obtain ⟨classes, family, within⟩ := family_of_made made
  have wellNamed := family.wellNamed within isSchema
  have opens := Container.opens_of_ofSchema built
  obtain ⟨children, rfl⟩ := extended.own awaited opens wellNamed found
  obtain ⟨otherChildren, rfl⟩ := extendedToo.own awaited opens wellNamed foundToo
  have isSet : holder.isUnset = false := by cases holder <;> first | rfl | cases object
  obtain ⟨ownHolder, unamended, edited, written, before, afterwards⟩ :=
    beside_edit (.property parent name target children) (.property parent other beside otherChildren) rfl own stands isSet done
  obtain ⟨stored, read, reads⟩ := Access.attribute_beside_write ownHolder unmapped written (.text beside.name) otherKey
    beside.field.collection?
  refine ⟨unamended, ⟨stored, (before stored).mpr read, ?_⟩, fun same => ⟨?_, ?_⟩⟩
  · intro apart independent present later
    refine (afterwards present later stored).mpr ((reads independent).trans ?_)
    rw [if_neg apart]
  · intro present later
    have independent : ¬ holder.Derives key otherKey := by
      rintro ⟨-, first, second⟩
      exact absurd (first.symm.trans (same.trans second)) (by decide : tokensKey ≠ pathKey)
    refine (afterwards present later _).mpr ((reads independent).trans ?_)
    rw [if_pos same]
  · exact opens.shares_mapped_key wellNamed (family.keys_nodup within isSchema) found foundToo differ same

/-- Whether a class that was made has pointers for both tokens, the change can be made through the first one, and the test
holds of what comes of it. -/
private def tries (sources : List ClassSource) (token other : String) (change : Edit) (record : Value)
    (test : Container → Pointer → Value → Bool) : Bool :=
  (({ rootLabel := "Event" } : Session).made sources)[1]?.any fun cls => cls.schema?.any fun schema =>
    (Container.ofSchema schema "" (some { ground := .schema schema.id })).toOption.any fun container =>
      ((Pointer.root container).child {} true token).outcome.toOption.any fun pointer =>
        ((Pointer.root container).child {} true other).outcome.toOption.any fun otherPointer =>
          (pointer.edit {} change record).2.toOption.any fun _ =>
            test container otherPointer (pointer.edit {} change record).1

private theorem of_tries {sources : List ClassSource} {token other : String} {test : Container → Pointer → Value → Bool}
    (holds : tries sources token other change record test = true) :
    ∃ (cls : Class) (schema : Schema) (container : Container) (pointer otherPointer : Pointer) (after prior : Value),
      cls ∈ ({ rootLabel := "Event" } : Session).made sources ∧ cls.schema? = some schema ∧
      Container.ofSchema schema "" (some { ground := .schema schema.id }) = .ok container ∧
      pointer.Extends (.root container) token ∧ otherPointer.Extends (.root container) other ∧
      pointer.edit {} change record = (after, .ok prior) ∧ test container otherPointer after = true := by
  simp only [tries, Option.any_eq_true, toOption_eq_some] at holds
  obtain ⟨cls, made, schema, offered, container, built, pointer, extended, otherPointer, extendedToo, prior, done, passes⟩ := holds
  exact ⟨cls, schema, container, pointer, otherPointer, _, prior, List.mem_of_getElem? made, offered, built,
    ⟨{}, {}, true, Memory.lasting_of_empty, extended⟩, ⟨{}, {}, true, Memory.lasting_of_empty, extendedToo⟩,
    Prod.ext rfl done, passes⟩

private theorem root_is_own {container : Container} (own : record.isOwn = true) :
    ∀ met ∈ Route.trace {} ((Pointer.root container).route {}) record, met.isOwn = true := by
  intro met here
  obtain rfl := List.mem_singleton.mp here
  exact own

private def readsText (text : String) (outcome : Except AccessFault Value) : Bool :=
  outcome.toOption.any fun value => value.text? = some text

private theorem readsText_iff {text : String} {outcome : Except AccessFault Value} :
    readsText text outcome = true ↔ outcome = .ok (.text text) := by
  have found {value : Value} : value.text? = some text ↔ value = .text text := by
    cases value <;> simp [Value.text?]
  simp [readsText, Option.any_eq_true, toOption_eq_some, found]

/-- An event as an object keeps its kind when it is said when it happened. -/
theorem day_leaves_the_kind :
    let record := object [("happened_on", .text "Monday"), ("kind", .text "OPENED")]
    ∃ (cls : Class) (schema : Schema) (container : Container) (pointer other : Pointer) (after prior stored : Value),
      cls ∈ ({ rootLabel := "Event" } : Session).made kindsOfEvents ∧ cls.schema? = some schema ∧
      Container.ofSchema schema "" (some { ground := .schema schema.id }) = .ok container ∧
      pointer.Extends (.root container) "happenedOn" ∧ other.Extends (.root container) "kind" ∧
      pointer.edit {} (.replace (.text "Tuesday")) record = (after, .ok prior) ∧
      other.get {} record = .ok stored ∧ other.get {} after = .ok stored := by
  intro record
  have computed : tries kindsOfEvents "happenedOn" "kind" (.replace (.text "Tuesday")) record (fun container _ _ =>
      (container.property? "happenedOn").any fun target => (container.property? "kind").any fun beside =>
        target.field.mappedKey = "happened_on" ∧ beside.field.mappedKey = "kind") = true := by
    decide +kernel
  obtain ⟨cls, schema, container, pointer, other, after, prior, made, offered, built, extended, extendedToo, done, keys⟩ :=
    of_tries computed
  simp only [Option.any_eq_true, decide_eq_true_eq] at keys
  obtain ⟨target, found, beside, foundToo, key, otherKey⟩ := keys
  obtain ⟨-, ⟨stored, read, kept⟩, -⟩ := attributes_alias_by_mapped_keys "Event" kindsOfEvents made offered built rfl found
    foundToo (by decide) extended extendedToo rfl rfl rfl (root_is_own rfl) done
  have independent : ¬ record.Derives target.field.mappedKey beside.field.mappedKey := by
    rintro ⟨⟨tokens, attributes, same⟩, -⟩
    simp [record] at same
  have again := kept (by simp [key, otherKey]) independent {} {}
  exact ⟨cls, schema, container, pointer, other, after, prior, stored, made, offered, built, extended, extendedToo, done, read,
    again⟩

/-- Events that are sorted by a field of the key that is also the name of their type property. -/
def sortsOfEvents : List ClassSource := [
  { name := "Noted", label := "Noted", bases := [Schema.base.name], isMixin := false,
    fields := [("text", .scalar "string" "" "")], options := none },
  { name := "Event", label := "Event", bases := [Schema.base.name], isMixin := false,
    fields := [("type", .scalar "string" "sort" "")],
    options := some { subtypes := some [("NOTED", .label "Noted")] } }]

/-- An event as an object has its type changed when it is sorted. -/
theorem sort_changes_the_type :
    let record := object [("type", .text "NOTED")]
    ∃ (cls : Class) (schema : Schema) (container : Container) (pointer other : Pointer) (after prior : Value),
      cls ∈ ({ rootLabel := "Event" } : Session).made sortsOfEvents ∧ cls.schema? = some schema ∧
      Container.ofSchema schema "" (some { ground := .schema schema.id }) = .ok container ∧
      pointer.Extends (.root container) "sort" ∧ other.Extends (.root container) "type" ∧
      pointer.edit {} (.replace (.text "new")) record = (after, .ok prior) ∧
      other.get {} record = .ok (.text "NOTED") ∧ other.get {} after = .ok (.text "new") := by
  intro record
  have computed : tries sortsOfEvents "sort" "type" (.replace (.text "new")) record (fun _ other after =>
      readsText "NOTED" (other.get {} record) && readsText "new" (other.get {} after)) = true := by
    decide +kernel
  obtain ⟨cls, schema, container, pointer, other, after, prior, made, offered, built, extended, extendedToo, done, texts⟩ :=
    of_tries computed
  simp only [Bool.and_eq_true, readsText_iff] at texts
  exact ⟨cls, schema, container, pointer, other, after, prior, made, offered, built, extended, extendedToo, done, texts⟩

/-- The discriminator of a mapping stays what it is when another property is changed, unless that is a property of a subtype
with the same name. It then becomes what was written. So it is for a subtype that declares a field of the name, or is told
apart from subtypes of its own by a property of the name. -/
theorem discriminator_changes_with_namesakes (rootLabel : String) (sources : List ClassSource)
    (made : cls ∈ ({ rootLabel } : Session).made sources) (offered : cls.schema? = some schema)
    (built : Container.ofSchema schema path (some place) = .ok container) (polymorphic : schema.isPolymorphic = true)
    (awaited : parent.next {} = .property container) {token : String} (differ : token ≠ schema.typeProperty)
    {pointer discriminator : Pointer} (extended : pointer.Extends parent token)
    (telling : discriminator.Extends parent schema.typeProperty)
    (stands : parent.get { registry, memory } record = .ok holder) (mapping : holder.isMapping = true)
    (own : ∀ met ∈ Route.trace { registry, memory } (parent.route {}) record, met.isOwn = true)
    (done : pointer.edit { registry, memory } change record = (after, .ok prior)) :
    pointer.amend { registry, memory } change record = {} ∧
    (∃ stored, discriminator.get { registry, memory } record = .ok stored ∧
      ((∀ subtype ∈ schema.subtypes, token ≠ subtype.1 ++ ":" ++ schema.typeProperty) → ∀ present later,
        discriminator.get { registry := present, memory := later } after = .ok stored)) ∧
    ∀ subtype ∈ schema.subtypes, token = subtype.1 ++ ":" ++ schema.typeProperty →
      (∀ present later, discriminator.get { registry := present, memory := later } after = .ok (change.value?.getD .null)) ∧
      ∃ target specific specificSchema, pointer.property? = some target ∧ target.container = some specific ∧
        specific.Opens specificSchema (place.below (.subtype subtype.1)) ∧
        ((∃ field ∈ specificSchema.fields, field.name = schema.typeProperty) ∨
          (specificSchema.isPolymorphic = true ∧ specificSchema.typeProperty = schema.typeProperty)) := by
  obtain ⟨rfl, isSchema⟩ := Class.schema_of_schema? offered
  obtain ⟨classes, family, within⟩ := family_of_made made
  have wellNamed := family.wellNamed within isSchema
  have opens := Container.opens_of_ofSchema built
  obtain ⟨kind, tells⟩ : ∃ kind, container.property? cls.outline.typeProperty = some kind :=
    ⟨_, (opens.property?_eq wellNamed).mpr (.inr ⟨polymorphic, rfl, rfl⟩)⟩
  have kindName : kind.name = cls.outline.typeProperty := name_of_property? opens tells
  obtain ⟨nothing, rfl⟩ := telling.own awaited opens wellNamed tells
  obtain ⟨target, children, rfl, named⟩ := extended.property awaited opens
  have isSet : holder.isUnset = false := by cases holder <;> first | rfl | cases mapping
  obtain ⟨ownHolder, unamended, edited, written, before, afterwards⟩ :=
    beside_edit (.property parent token target children) (.property parent _ kind nothing) rfl own stands isSet done
  obtain ⟨stored, read, reads⟩ := Access.entry_beside_write mapping written kind.name (.text kind.field.mappedKey)
    kind.field.collection?
  refine ⟨unamended, ⟨stored, (before stored).mpr read, ?_⟩, ?_⟩
  · intro apart present later
    have otherName : target.name ≠ kind.name := by
      rw [kindName]
      rcases named with ⟨-, same⟩ | ⟨subtype, name, property, _, _, parts, listed, -, -, same⟩
      · exact same ▸ differ
      · rintro telling
        obtain ⟨reference, within, -⟩ := (opens.subtype?_eq wellNamed).mp listed
        refine apart _ within ?_
        rw [(subtypeAndName?_eq_some.mp parts).1, ← same, telling]
    refine (afterwards present later stored).mpr (reads.trans ?_)
    rw [if_neg otherName]
  · rintro ⟨subtype, reference⟩ listed rfl
    rcases named with ⟨found, -⟩ | ⟨first, name, property, specific, specificSchema, parts, -, specificOpens, found, same⟩
    · have noColon := no_colon_in_property opens wellNamed found
      simp at noColon
    · obtain ⟨rfl, rfl⟩ : first = subtype ∧ name = cls.outline.typeProperty := by
        obtain ⟨whole, -, noColon, -⟩ := subtypeAndName?_eq_some.mp parts
        have allowed := (MemberName.no_colon (wellNamed.subtype_allowed _ listed)).2
        obtain ⟨same, rest⟩ := qualified_inj allowed noColon whole
        exact ⟨same.symm, rest.symm⟩
      refine ⟨fun present later => ?_, target, specific, specificSchema, rfl, ?_, specificOpens, ?_⟩
      · refine (afterwards present later _).mpr (reads.trans ?_)
        rw [if_pos (same.trans kindName.symm)]
      · obtain ⟨_, -, rfl⟩ := Option.map_eq_some_iff.mp found
        rfl
      · rcases specificOpens.field_of_property? found with ⟨declared, called⟩ | ⟨polymorphic, telling, -⟩
        · exact .inl ⟨_, declared, called⟩
        · exact .inr ⟨polymorphic, telling⟩

/-- An event keeps its kind when it is said who opened it. -/
theorem opener_leaves_the_kind :
    let record := dict [("kind", .text "OPENED"), ("byWho", .text "Smith")]
    ∃ (cls : Class) (schema : Schema) (container : Container) (pointer discriminator : Pointer) (after prior stored : Value),
      cls ∈ ({ rootLabel := "Event" } : Session).made kindsOfEvents ∧ cls.schema? = some schema ∧
      schema.isPolymorphic = true ∧ Container.ofSchema schema "" (some { ground := .schema schema.id }) = .ok container ∧
      pointer.Extends (.root container) "OPENED:byWho" ∧ discriminator.Extends (.root container) schema.typeProperty ∧
      pointer.edit {} (.replace (.text "Jones")) record = (after, .ok prior) ∧
      discriminator.get {} record = .ok stored ∧ discriminator.get {} after = .ok stored := by
  intro record
  have computed : tries kindsOfEvents "OPENED:byWho" "kind" (.replace (.text "Jones")) record (fun container _ _ =>
      container.schema.isPolymorphic = true ∧ container.schema.typeProperty = "kind" ∧
        container.schema.subtypes.map Prod.fst = ["OPENED"]) = true := by
    decide +kernel
  obtain ⟨cls, schema, container, pointer, other, after, prior, made, offered, built, extended, telling, done, kinds⟩ :=
    of_tries computed
  rw [decide_eq_true_eq, (Container.opens_of_ofSchema built).taken] at kinds
  obtain ⟨polymorphic, kind, listed⟩ := kinds
  rw [← kind] at telling
  obtain ⟨-, ⟨stored, read, kept⟩, -⟩ := discriminator_changes_with_namesakes "Event" kindsOfEvents made offered built polymorphic
    rfl (by rw [kind]; decide) extended telling rfl rfl (root_is_own rfl) done
  have apart : ∀ subtype ∈ schema.subtypes, "OPENED:byWho" ≠ subtype.1 ++ ":" ++ schema.typeProperty := by
    intro subtype within
    have named : subtype.1 ∈ schema.subtypes.map Prod.fst := List.mem_map_of_mem within
    rw [listed, List.mem_singleton] at named
    rw [named, kind]
    decide
  exact ⟨cls, schema, container, pointer, other, after, prior, stored, made, offered, polymorphic, built, extended, telling, done,
    read, kept apart {} {}⟩

/-- Events of a kind, where those that were opened have another kind of their own. -/
def kindsOfOpening : List ClassSource := [
  { name := "Opened", label := "Opened", bases := [Schema.base.name], isMixin := false,
    fields := [("kind", .scalar "string" "" "")], options := none },
  { name := "Event", label := "Event", bases := [Schema.base.name], isMixin := false, fields := [],
    options := some { typeProperty := some "kind", subtypes := some [("OPENED", .label "Opened")] } }]

/-- An event is no longer of its kind when the kind of opening is told. -/
theorem kind_of_opening_changes_the_kind :
    let record := dict [("kind", .text "OPENED")]
    ∃ (cls : Class) (schema : Schema) (container : Container) (pointer discriminator : Pointer) (after prior : Value),
      cls ∈ ({ rootLabel := "Event" } : Session).made kindsOfOpening ∧ cls.schema? = some schema ∧
      schema.isPolymorphic = true ∧ schema.typeProperty = "kind" ∧
      Container.ofSchema schema "" (some { ground := .schema schema.id }) = .ok container ∧
      pointer.Extends (.root container) "OPENED:kind" ∧ discriminator.Extends (.root container) "kind" ∧
      pointer.edit {} (.replace (.text "online")) record = (after, .ok prior) ∧
      discriminator.get {} record = .ok (.text "OPENED") ∧ discriminator.get {} after = .ok (.text "online") := by
  intro record
  have computed : tries kindsOfOpening "OPENED:kind" "kind" (.replace (.text "online")) record (fun container other after =>
      decide (container.schema.isPolymorphic = true ∧ container.schema.typeProperty = "kind") &&
        (readsText "OPENED" (other.get {} record) && readsText "online" (other.get {} after))) = true := by
    decide +kernel
  obtain ⟨cls, schema, container, pointer, other, after, prior, made, offered, built, extended, telling, done, told⟩ :=
    of_tries computed
  rw [Bool.and_eq_true, decide_eq_true_eq, (Container.opens_of_ofSchema built).taken] at told
  obtain ⟨⟨polymorphic, kind⟩, texts⟩ := told
  simp only [Bool.and_eq_true, readsText_iff] at texts
  exact ⟨cls, schema, container, pointer, other, after, prior, made, offered, polymorphic, kind, built, extended, telling, done,
    texts⟩

end Session
end RecordAddress
