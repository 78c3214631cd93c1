import Mathlib.Data.List.Nodup
import RecordAddress.Proofs.Grammar
import RecordAddress.Proofs.Outcomes
import RecordAddress.Schema.Class

/-! What class definitions see to. While fields are declared every name belongs to one key, and a class is
only defined if the names of its fields and subtypes are allowed and the type property is none of them. -/

namespace RecordAddress.Class

/-- The fields declared so far stand under different keys, and each name belongs to the key of its field. -/
structure Declared.Sound (declared : Declared) : Prop where
  keys : declared.fields.keys.Nodup
  named : ∀ key field, (key, field) ∈ declared.fields → Entries.find? field.name declared.names = some key
  allowed : ∀ key field, (key, field) ∈ declared.fields → field.name = "" ∨ MemberName.allowed field.name = true

variable {className : String} {style : Text.NamingStyle} {declared after : Declared} {entry : String × Field Schema}

theorem checkName_eq_ok {name : String} {result : Unit} :
    Field.checkName name = .ok result ↔ name = "" ∨ MemberName.allowed name = true := by
  unfold Field.checkName
  split <;> simp_all

/-- Only a name and a mapped key that were not given are made up. -/
theorem complete_eq_ok {key : String} {field completed : Field Schema}
    (complete : complete style key field = .ok completed) :
    ∃ name, (field.name ≠ "" → name = field.name) ∧ (name = "" ∨ MemberName.allowed name = true) ∧
      completed = { field with key, name, mappedKey := if field.mappedKey = "" then key else field.mappedKey } := by
  unfold Class.complete at complete
  by_cases unnamed : field.name = ""
  · rw [if_pos unnamed] at complete
    simp only [bind_eq_ok, mapError_eq_ok] at complete
    obtain ⟨name, -, _, allowed, same⟩ := complete
    cases same
    exact ⟨name, fun named => absurd unnamed named, checkName_eq_ok.mp allowed, rfl⟩
  · rw [if_neg unnamed] at complete
    simp only [bind_eq_ok, mapError_eq_ok] at complete
    obtain ⟨name, given, _, allowed, same⟩ := complete
    cases given
    cases same
    exact ⟨field.name, fun _ => rfl, checkName_eq_ok.mp allowed, rfl⟩

private theorem name_of_complete {key : String} {field completed : Field Schema}
    (complete : complete style key field = .ok completed) :
    completed.name = "" ∨ MemberName.allowed completed.name = true := by
  obtain ⟨name, -, allowed, rfl⟩ := complete_eq_ok complete
  exact allowed

theorem Declared.Sound.add (sound : declared.Sound) (added : declared.add className style entry = .ok after) :
    after.Sound := by
  obtain ⟨key, given⟩ := entry
  simp only [Declared.add, bind_eq_ok] at added
  obtain ⟨field, complete, added⟩ := added
  have allowed := name_of_complete complete
  split at added
  next first owned =>
    split at added
    · cases added
    next same =>
      obtain rfl : first = key := by simpa using same
      cases added
      refine ⟨Entries.put_nodup sound.keys, ?_, ?_⟩
      · intro name other within
        rcases Entries.mem_put sound.keys within with ⟨rfl, rfl⟩ | ⟨-, before⟩
        · exact owned
        · exact sound.named name other before
      · intro name other within
        rcases Entries.mem_put sound.keys within with ⟨-, rfl⟩ | ⟨-, before⟩
        · exact allowed
        · exact sound.allowed name other before
  next unowned =>
    cases added
    refine ⟨Entries.put_nodup sound.keys, ?_, ?_⟩
    · intro name other within
      rw [Entries.find?_put]
      rcases Entries.mem_put sound.keys within with ⟨rfl, rfl⟩ | ⟨-, before⟩
      · rw [if_pos rfl]
      · have owned := sound.named name other before
        rw [if_neg, owned]
        intro same
        rw [same, owned] at unowned
        cases unowned
    · intro name other within
      rcases Entries.mem_put sound.keys within with ⟨-, rfl⟩ | ⟨-, before⟩
      · exact allowed
      · exact sound.allowed name other before

private theorem nothing_is_sound : Declared.Sound {} where
  keys := List.nodup_nil
  named := fun _ _ within => absurd within List.not_mem_nil
  allowed := fun _ _ found => by cases found

theorem sound_of_declare {fields : List (String × Field Schema)} (declares : declare className style fields = .ok after) :
    after.Sound := by
  suffices step : ∀ declared : Declared, declared.Sound →
      fields.foldlM (Declared.add className style) declared = .ok after → after.Sound from
    step {} nothing_is_sound declares
  clear declares
  induction fields with
  | nil =>
    intro declared sound same
    cases same
    exact sound
  | cons entry rest ih =>
    intro declared sound folded
    rw [List.foldlM_cons, bind_eq_ok] at folded
    obtain ⟨next, added, further⟩ := folded
    exact ih next (sound.add added) further

theorem Declared.Sound.names (sound : declared.Sound) : (declared.fields.values.map Field.name).Nodup := by
  have owners : (declared.fields.values.map Field.name).map (Entries.find? · declared.names) =
      declared.fields.keys.map some := by
    simp only [Entries.values, Entries.keys, List.map_map]
    exact List.map_congr_left fun entry within => sound.named entry.1 entry.2 within
  have distinct : (declared.fields.keys.map some).Nodup := sound.keys.map fun _ _ => Option.some.inj
  rw [← owners] at distinct
  exact distinct.of_map

theorem checkSubtype_eq_ok {subtype : Option String × Reference Schema} {checked : String × Reference Schema}
    (passed : checkSubtype subtype = .ok checked) :
    subtype = (some checked.1, checked.2) ∧ MemberName.allowed checked.1 = true := by
  unfold checkSubtype at passed
  split at passed
  · cases passed
  next name given =>
    split at passed
    next allowed =>
      cases passed
      exact ⟨Prod.ext given rfl, allowed⟩
    · cases passed

private theorem names_of_subtypes {subtypes : Entries (Reference Schema) (Option String)}
    {checked : Entries (Reference Schema)} (passed : subtypes.mapM checkSubtype = .ok checked) :
    subtypes.keys = checked.keys.map some ∧ ∀ subtype ∈ checked, MemberName.allowed subtype.1 = true := by
  induction subtypes generalizing checked with
  | nil =>
    cases passed
    exact ⟨rfl, nofun⟩
  | cons subtype rest ih =>
    rw [List.mapM_cons, bind_eq_ok] at passed
    obtain ⟨first, passed, further⟩ := passed
    rw [bind_eq_ok] at further
    obtain ⟨others, further, same⟩ := further
    cases same
    obtain ⟨rfl, allowed⟩ := checkSubtype_eq_ok passed
    obtain ⟨names, allAllowed⟩ := ih further
    constructor
    · rw [Entries.keys, List.map_cons]
      exact congrArg (some first.1 :: ·) names
    · rintro other within
      rcases List.mem_cons.mp within with rfl | later
      · exact allowed
      · exact allAllowed other later

variable {names : Entries String} {subtypes : Entries (Reference Schema) (Option String)}
  {checked : Entries (Reference Schema)}

/-- Subtypes are taken over as they are, and with any the type property has a name of its own. -/
theorem checkSubtypes_eq_ok {typeProperty : Label}
    (passed : checkSubtypes className typeProperty subtypes names = .ok checked) :
    subtypes.mapM checkSubtype = .ok checked ∧
    (checked ≠ [] → typeProperty ≠ .other → ∃ name, typeProperty = .text name ∧ Entries.find? name names = none) := by
  unfold checkSubtypes at passed
  split at passed
  next nothing =>
    cases passed
    rw [List.isEmpty_iff.mp nothing]
    exact ⟨rfl, fun some => absurd rfl some⟩
  next =>
    cases typeProperty with
    | text name =>
      cases taken : Entries.contains name names with
      | true =>
        simp only [taken, ite_true] at passed
        cases passed
      | false =>
        simp only [taken, Bool.false_eq_true, ite_false] at passed
        refine ⟨passed, fun _ _ => ⟨name, rfl, ?_⟩⟩
        simpa [Entries.contains] using taken
    | other => exact ⟨passed, fun _ other => absurd rfl other⟩
    | unusable => cases passed

theorem mem_of_checkSubtypes {typeProperty : Label}
    (passed : checkSubtypes className typeProperty subtypes names = .ok checked) {subtype : String × Reference Schema}
    (within : subtype ∈ checked) : (some subtype.1, subtype.2) ∈ subtypes := by
  obtain ⟨given, inside, checks⟩ := mem_of_mapM (checkSubtypes_eq_ok passed).1 within
  obtain ⟨rfl, -⟩ := checkSubtype_eq_ok checks
  exact inside

theorem mem_of_listSubtypes {given : Option (Subtypes Schema)} (listed : listSubtypes given = .ok subtypes)
    {subtype : Option String × Reference Schema} (within : subtype ∈ subtypes) :
    ∃ entries, given = some (.listed entries) ∧ subtype ∈ entries := by
  unfold listSubtypes at listed
  split at listed <;> cases listed
  · cases within
  · exact ⟨_, rfl, Entries.mem_of_ofList within⟩

private theorem listSubtypes_nodup {given : Option (Subtypes Schema)}
    (listed : listSubtypes given = .ok subtypes) : subtypes.keys.Nodup := by
  unfold listSubtypes at listed
  split at listed <;> cases listed
  · exact List.nodup_nil
  · exact Entries.ofList_nodup _

/-- How a schema is made of a definition and its ancestors. -/
theorem schema_eq_ok {definition : Definition} {id : Nat} {ancestors : List Body} {schema : Schema}
    (made : definition.schema id ancestors = .ok (schema, declared)) :
    let options := ((definition.settings? id ancestors).map Settings.options).getD {}
    let typeProperty := options.typeProperty.getD (.text "type")
    ∃ listed style subtypes, listSubtypes options.subtypes = .ok listed ∧
      declare definition.name style (inherited ancestors ++ definition.own id) = .ok declared ∧
      checkSubtypes definition.name typeProperty listed declared.names = .ok subtypes ∧
      schema =
        { id, name := definition.name, recordType := definition.recordType, typeProperty := typeProperty.name
          subtypes, fields := Entries.values declared.fields, naming := options.naming
          lineage := { id, options := definition.ownOptions id } :: ancestors.map Body.layer
          hidden := hiddenOperations ancestors } := by
  simp only [Definition.schema, bind_eq_ok] at made
  obtain ⟨_, -, listed, lists, made⟩ := made
  cases misnamed : ancestors.any Body.isMisnamed with
  | true =>
    rw [misnamed] at made
    cases made
  | false =>
    simp only [misnamed, Bool.false_eq_true, ite_false, bind_eq_ok] at made
    obtain ⟨_, declares, subtypes, checks, same⟩ := made
    cases same
    exact ⟨listed, _, subtypes, lists, declares, checks, rfl⟩

/-- The schema of a class definition is well named, unless its type property is called by no text. -/
theorem wellNamed_of_schema {definition : Definition} {id : Nat} {ancestors : List Body} {schema : Schema}
    (telling : (((definition.settings? id ancestors).map Settings.options).getD {}).typeProperty ≠ some .other)
    (defined : definition.schema id ancestors = .ok (schema, declared)) : schema.WellNamed := by
  obtain ⟨listed, style, subtypes, lists, declares, checks, rfl⟩ := schema_eq_ok defined
  generalize ((definition.settings? id ancestors).map Settings.options).getD {} = options at telling lists checks ⊢
  have sound := sound_of_declare declares
  obtain ⟨taken, free⟩ := checkSubtypes_eq_ok checks
  obtain ⟨keys, allowed⟩ := names_of_subtypes taken
  have distinct : subtypes.keys.Nodup := (keys ▸ listSubtypes_nodup lists).of_map
  have declaredUnder : ∀ field ∈ declared.fields.values, ∃ key, (key, field) ∈ declared.fields := by
    intro field within
    obtain ⟨⟨key, _⟩, stored, rfl⟩ := List.mem_map.mp within
    exact ⟨key, stored⟩
  refine ⟨sound.names, ?_, ?_, distinct, allowed⟩
  · intro field within
    obtain ⟨key, within⟩ := declaredUnder field within
    exact sound.allowed key field within
  · intro polymorphic field within
    obtain ⟨key, within⟩ := declaredUnder field within
    have listed : subtypes ≠ [] := by simpa [Schema.isPolymorphic] using polymorphic
    have known : options.typeProperty.getD (.text "type") ≠ .other := by
      cases given : options.typeProperty with
      | none => simp
      | some label => simpa [given] using telling
    obtain ⟨name, label, unowned⟩ := free listed known
    have owned := sound.named key field within
    intro same
    simp only [label, Label.name] at same
    rw [same, unowned] at owned
    cases owned

theorem nearestSettings?_cons (body : Body) (ancestors : List Body) :
    nearestSettings? (body :: ancestors) = (body.settings <|> nearestSettings? ancestors) := by
  unfold nearestSettings?
  cases given : body.settings <;> simp [given]

/-- A schema has the fields that its ancestors hand down and those of its own. -/
theorem declares_of_schema {definition : Definition} {id : Nat} {ancestors : List Body} {schema : Schema}
    (made : definition.schema id ancestors = .ok (schema, declared)) :
    schema.id = id ∧ schema.isMixin = false ∧ schema.fields = declared.fields.values ∧
      ∃ style, declare definition.name style (inherited ancestors ++ definition.own id) = .ok declared := by
  obtain ⟨_, style, _, -, declares, -, rfl⟩ := schema_eq_ok made
  exact ⟨rfl, rfl, rfl, style, declares⟩

/-- A class that is no schema hands down the fields of its own. Other values than settings may stand in the place
of its settings. -/
structure MixinBody (definition : Definition) (id : Nat) (body : Body) : Prop where
  numbered : body.id = id
  noSchema : body.isSchema = false
  own : body.own = definition.own id
  handedDown : body.handedDown = definition.own id
  settings : body.settings = (definition.ownOptions id).map .given ∨
    definition.options = none ∧ body.settings = some (.value {})

/-- A class is either a schema made from its ancestors or a mixin. -/
theorem define_cases {definition : Definition} {id : Nat} {cls : Class} (defined : define id definition = .ok cls) :
    ∃ ancestors : List Body,
      Linearization.ofBases? Body.id (definition.bases.map order) (definition.bases.map Class.body) = some ancestors ∧
      ((∃ schema declared, definition.schema id ancestors = .ok (schema, declared) ∧
        cls = { outline := schema, ancestors, body :=
          { id, isSchema := true, own := definition.own id, handedDown := declared.fields,
            settings := (definition.ownOptions id).map .given } }) ∨
      (∃ body : Body, MixinBody definition id body ∧
        cls = { outline := definition.mixin (body :: ancestors), ancestors, body })) := by
  unfold define at defined
  cases named : definition.name.toList.contains (Char.ofNat 0) with
  | true =>
    rw [named] at defined
    cases defined
  | false =>
    rw [named] at defined
    simp only [Bool.false_eq_true, ite_false] at defined
    split at defined
    next ancestors linear =>
      rw [bind_eq_ok] at defined
      obtain ⟨_, -, defined⟩ := defined
      refine ⟨ancestors, linear, ?_⟩
      cases schemas : ancestors.any Body.isSchema with
      | true =>
        rw [schemas, if_pos rfl, bind_eq_ok] at defined
        obtain ⟨⟨schema, declared⟩, made, same⟩ := defined
        cases same
        exact .inl ⟨schema, declared, made, rfl⟩
      | false =>
        rw [schemas, if_neg (by simp)] at defined
        split at defined
        · cases defined
          refine .inr ⟨_, ⟨rfl, rfl, rfl, rfl, ?_⟩, rfl⟩
          cases own : definition.ownOptions id with
          | some options => exact .inl rfl
          | none =>
            cases Entries.contains Definition.settingsKey (definition.own id) with
            | true => exact .inr ⟨Option.map_eq_none_iff.mp own, rfl⟩
            | false => exact .inl rfl
        · cases defined
    next => cases defined

/-- Classes are well named, unless their type property is called by no text. -/
theorem wellNamed_of_define {definition : Definition} {id : Nat} {cls : Class} (defined : define id definition = .ok cls)
    (isSchema : cls.outline.isMixin = false)
    (telling : ((cls.settings?.map Settings.options).getD {}).typeProperty ≠ some .other) : cls.outline.WellNamed := by
  obtain ⟨ancestors, -, ⟨schema, declared, made, rfl⟩ | ⟨body, -, rfl⟩⟩ := define_cases defined
  · refine wellNamed_of_schema ?_ made
    simpa only [Class.settings?, Class.order, nearestSettings?_cons, Definition.settings?] using telling
  · cases isSchema

/-- A class that is defined gets the number that it is given. -/
theorem ids_of_define {definition : Definition} {id : Nat} {cls : Class} (defined : define id definition = .ok cls) :
    cls.body.id = id ∧ cls.outline.id = id := by
  obtain ⟨ancestors, -, ⟨schema, declared, made, rfl⟩ | ⟨body, mixin, rfl⟩⟩ := define_cases defined
  · exact ⟨rfl, (declares_of_schema made).1⟩
  · exact ⟨mixin.numbered, mixin.numbered⟩

/-- A class that is a schema is seen as that schema. -/
theorem schema_of_schema? {cls : Class} {schema : Schema} (offered : cls.schema? = some schema) :
    schema = cls.outline ∧ schema.isMixin = false := by
  unfold Class.schema? at offered
  split at offered
  · cases offered
  next isSchema =>
    cases offered
    exact ⟨rfl, by simpa using isSchema⟩

end RecordAddress.Class
