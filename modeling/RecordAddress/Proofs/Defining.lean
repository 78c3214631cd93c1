import RecordAddress.Proofs.Actions
import RecordAddress.Proofs.Definitions
import RecordAddress.Proofs.Linearizing

/-! Sessions in which classes are defined one after the other. A definition that succeeds adds one class, under its
label and, unless it is a mixin, in the registry. One that fails leaves the session as it was. -/

namespace RecordAddress

theorem Amendments.recordType_unchanged {schema : Schema} (isSchema : schema.isMixin = false) :
    ({} : Amendments).setting schema recordTypeKey = .ok (.text schema.recordType) := by
  simp [Amendments.setting, Amendments.standIn, isSchema, recordTypeKey, madeWith, bind, Except.bind]

/-- What is told of a property is what its field declares. -/
structure PropertySummary.Describes (summary : PropertySummary) (field : Field Schema) : Prop where
  kind : summary.kind = field.kindName
  key : summary.key = .text field.key
  name : summary.name = .text field.name
  mappedKey : summary.mappedKey = .text field.mappedKey
  valueType : summary.valueType = .text field.valueType.name
  collection : summary.collection = field.collection?

/-- A property that nothing was changed of can always be told of. -/
theorem PropertySummary.of_unchanged (property : Property) :
    ∃ summary, PropertySummary.of {} property = .ok summary ∧ summary.Describes property.field := by
  have leads : ({} : Amendments).leading property = .ok (property.container.map ({} : Amendments).pathOf) := rfl
  have read : ∃ part, (property.container.map ({} : Amendments).pathOf).mapM Amendments.partOfPath = .ok part := by
    cases property.container with
    | none => exact ⟨_, rfl⟩
    | some container => exact ⟨_, by rw [Option.map_some, Amendments.pathOf_unchanged]; rfl⟩
  obtain ⟨part, read⟩ := read
  have name : ({} : Amendments).name property = .text property.name := by simp [Amendments.name]
  have key : ({} : Amendments).key property = .text property.field.key := by simp [Amendments.key]
  have shown : ∃ text, ({} : Amendments).display property = .ok text := by
    simp only [Amendments.display, leads, read, bind, Except.bind]
    by_cases named : (({} : Amendments).name property).isTruthy = true
    · rw [if_pos named, name]
      exact ⟨_, rfl⟩
    · rw [if_neg named, key]
      exact ⟨_, rfl⟩
  have nests : ∃ path, ({} : Amendments).nestedPath property = .ok path := by
    simp only [Amendments.nestedPath, leads, read, name, Amendments.find?_unchanged, bind, Except.bind]
    cases property.givenPath <;> exact ⟨_, rfl⟩
  obtain ⟨text, shown⟩ := shown
  obtain ⟨path, nests⟩ := nests
  refine ⟨{ kind := property.field.kindName, written := text, key := .text property.field.key, name := .text property.name
            mappedKey := .text property.field.mappedKey, valueType := .text property.field.valueType.name
            collection := property.field.collection?, nestedPath := path }, ?_, ⟨rfl, rfl, rfl, rfl, rfl, rfl⟩⟩
  simp only [PropertySummary.of, shown, nests, Amendments.find?_unchanged]
  rfl

/-- What is reported of a class that takes over a record type from another one. -/
def Registry.takeover (registry : Registry) (target : Schema) : List Event :=
  ((registry.holder? (.text target.recordType) target).map fun former =>
    Event.redefined target.recordType former.name target.name).toList

namespace Session
variable {session : Session} {source : ClassSource} {cls : Class} {target : Schema}

theorem run_registered (unamended : session.context.amendments = {}) (isSchema : target.isMixin = false)
    (registry : Registry) :
    (registered registry target).run session =
      (.ok (registry.insert (.text target.recordType) target),
        { session with events := session.events ++ registry.takeover target }) := by
  have hashable : (Value.text target.recordType).isHashable = true := rfl
  have reads : Amendments.setting {} target Amendments.recordTypeKey = .ok (.text target.recordType) :=
    Amendments.recordType_unchanged isSchema
  simp only [registered, settle, run_bind, run_amended, unamended, reads, run_raise_ok, hashable, Bool.not_true,
    Bool.false_eq_true, ite_false]
  cases held : registry.holder? (.text target.recordType) target with
  | none => simp [Registry.takeover, held]
  | some former =>
    simp only [run_bind, run_report, run_pure, Registry.takeover, held]
    rfl

/-- The session after a class was registered. -/
def registering (session : Session) (target : Schema) : Session :=
  { session with
    context := { session.context with registry := session.context.registry.insert (.text target.recordType) target }
    events := session.events ++ session.context.registry.takeover target }

theorem run_register (unamended : session.context.amendments = {}) (isSchema : target.isMixin = false) :
    (register target).run session = (.ok ⟨⟩, session.registering target) := by
  simp only [register, run_bind, run_get, run_registered unamended isSchema, run_modify]
  rfl

/-- The session after a class was made, which is the one of the label from now on. Mixins are not registered. -/
def admitting (session : Session) (label : String) (cls : Class) : Session :=
  let registered := cls.schema?.elim session session.registering
  { registered with nextId := session.nextId + 1, labels := Entries.put label cls session.labels }

theorem unamended_admitting {label : String} (unamended : session.context.amendments = {}) :
    (session.admitting label cls).context.amendments = {} := by
  unfold admitting
  cases cls.schema? <;> exact unamended

private theorem labels_unchanged (unamended : session.context.amendments = {}) :
    (session.labels.map fun (label, cls) => (label, session.context.amendments.classOf cls)) = session.labels := by
  simp [unamended, Amendments.classOf]

theorem run_define_failed {fault : DefinitionFault} (unamended : session.context.amendments = {})
    (failed : source.define session.labels session.nextId = .error fault) :
    (define source).run session = (.error (.ofDefinition fault), session) := by
  simp only [define, run_bind, run_get, labels_unchanged unamended, failed, run_raise_error]

theorem run_define_made (unamended : session.context.amendments = {})
    (made : source.define session.labels session.nextId = .ok cls) :
    (define source).run session = (.ok cls, session.admitting source.label cls) := by
  have untouched : session.context.amendments.withClass cls = session.context.amendments := by
    rw [unamended]
    rfl
  simp only [define, run_bind, run_get, labels_unchanged unamended, made, run_raise_ok, run_modify, untouched]
  cases offered : cls.schema? with
  | none => simp only [run_bind, run_modify, run_pure, admitting, offered, Option.elim_none]
  | some target =>
    obtain ⟨-, isSchema⟩ := Class.schema_of_schema? offered
    simp only [run_bind]
    rw [run_register (by simpa using unamended) isSchema]
    simp only [run_modify, run_pure, admitting, offered, Option.elim_some]
    rfl

/-! Single definitions. -/

theorem step_of_failed {fault : DefinitionFault} (unamended : session.context.amendments = {})
    (failed : source.define session.labels session.nextId = .error fault) :
    step (.define source) session = (⟨.error (.ofDefinition fault), []⟩, session.quiet) := by
  have run : (define source).run session.quiet = (.error (.ofDefinition fault), session.quiet) :=
    run_define_failed unamended failed
  simp only [step, act_eq, Session.run, run_bind, run]
  rfl

private theorem summaries_unchanged (target : Schema) :
    ∃ told, (target.fields.mapM fun field => PropertySummary.of {} (Amendments.declaration target field)) = .ok told := by
  induction target.fields with
  | nil => exact ⟨[], rfl⟩
  | cons field rest ih =>
    obtain ⟨first, told, -⟩ := PropertySummary.of_unchanged (Amendments.declaration target field)
    obtain ⟨others, ih⟩ := ih
    exact ⟨first :: others, by rw [List.mapM_cons, told, ih]; rfl⟩

/-- A class that was made can always be told of. -/
theorem step_of_made (unamended : session.context.amendments = {})
    (made : source.define session.labels session.nextId = .ok cls) :
    ∃ answer, step (.define source) session =
      (⟨.ok answer, cls.schema?.elim [] session.context.registry.takeover⟩, session.quiet.admitting source.label cls) := by
  have run : (define source).run session.quiet = (.ok cls, session.quiet.admitting source.label cls) :=
    run_define_made unamended made
  have still : (session.quiet.admitting source.label cls).context.amendments = {} := unamended_admitting unamended
  have told : ∃ answer, ((Session.run (.define source)).run session.quiet) =
      (.ok answer, session.quiet.admitting source.label cls) := by
    simp only [Session.run, run_bind, run]
    split
    next target offered _ =>
      obtain ⟨fields, summarized⟩ := summaries_unchanged target
      obtain ⟨-, isSchema⟩ := Class.schema_of_schema? offered
      refine ⟨.defined (.text target.recordType) fields, ?_⟩
      simp only [summaries, settle, run_bind, run_amended, still, Amendments.recordType_unchanged isSchema, run_raise_ok,
        summarized, run_pure]
    next => exact ⟨.definedMixin, rfl⟩
  obtain ⟨answer, told⟩ := told
  refine ⟨answer, ?_⟩
  simp only [step, act_eq, told]
  cases offered : cls.schema? <;> simp [admitting, registering, Session.quiet, offered]

/-! Whole runs. -/

/-- The session after all of the definitions, whatever came of them. -/
def defining (session : Session) : List ClassSource → Session
  | [] => session
  | source :: rest => (step (.define source) session).2.defining rest

/-- The classes that come of the definitions. One that fails gives none. -/
def made (session : Session) : List ClassSource → List Class
  | [] => []
  | source :: rest => ((define source).run session).1.toOption.toList ++ (step (.define source) session).2.made rest

/-- How sessions come about by definitions alone, and the classes that were made in them. -/
inductive Defines (rootLabel : String) : List Class → Session → Prop
  | start : Defines rootLabel [] { rootLabel }
  | failed {classes : List Class} {session : Session} : Defines rootLabel classes session →
      Defines rootLabel classes session.quiet
  | made {classes : List Class} {session : Session} {source : ClassSource} {cls : Class} :
      Defines rootLabel classes session → source.define session.labels session.nextId = .ok cls →
      Defines rootLabel (classes ++ [cls]) (session.quiet.admitting source.label cls)

variable {rootLabel : String} {classes : List Class}

theorem Defines.unamended (defines : Defines rootLabel classes session) : session.context.amendments = {} := by
  induction defines with
  | start => rfl
  | failed _ ih => exact ih
  | made _ _ ih => exact unamended_admitting ih

theorem Defines.step (defines : Defines rootLabel classes session) (source : ClassSource) :
    Defines rootLabel (classes ++ ((define source).run session).1.toOption.toList)
      (Session.step (.define source) session).2 := by
  cases outcome : source.define session.labels session.nextId with
  | error fault =>
    rw [run_define_failed defines.unamended outcome, step_of_failed defines.unamended outcome]
    simpa [Except.toOption] using defines.failed
  | ok cls =>
    obtain ⟨_, stepped⟩ := step_of_made defines.unamended outcome
    rw [run_define_made defines.unamended outcome, stepped]
    exact defines.made outcome

theorem Defines.run (defines : Defines rootLabel classes session) (sources : List ClassSource) :
    Defines rootLabel (classes ++ session.made sources) (session.defining sources) := by
  induction sources generalizing classes session with
  | nil => simpa [Session.made, Session.defining] using defines
  | cons source rest ih =>
    rw [Session.made, ← List.append_assoc]
    exact ih (defines.step source)

theorem made_snoc (sources : List ClassSource) :
    session.made (sources ++ [source]) =
      session.made sources ++ ((define source).run (session.defining sources)).1.toOption.toList := by
  induction sources generalizing session with
  | nil => rw [List.nil_append, made, made, made, List.append_nil, List.nil_append, defining]
  | cons first rest ih => rw [List.cons_append, made, made, ih, defining, List.append_assoc]

theorem defines_run (rootLabel : String) (sources : List ClassSource) :
    Defines rootLabel (({ rootLabel } : Session).made sources) (({ rootLabel } : Session).defining sources) :=
  Defines.start.run sources

end Session

/-! What classes are defined from. -/

namespace Class
variable {classes : List Class} {definition : Definition}

/-- Bases, and settings to extend, are those of classes that were defined before. Nothing but a text is given for the
type property. -/
structure Definition.DrawnFrom (classes : List Class) (definition : Definition) : Prop where
  bases : ∀ base ∈ definition.bases, base ∈ classes
  options : ∀ options ∈ definition.options, options.typeProperty ≠ some .other
  extended : definition.extended = [] ∨ ∃ cls ∈ classes, cls.settings? = some (.given definition.extended)

/-- Classes that were defined from each other, the latest first. -/
inductive Family : List Class → Prop
  | base : Family [Class.base]
  | define {classes : List Class} {id : Nat} {definition : Definition} {cls : Class} : Family classes →
      (∀ other ∈ classes, other.body.id < id) → definition.DrawnFrom classes → Class.define id definition = .ok cls →
      Family (cls :: classes)

/-- All classes that bases bring with them stand in the order of a base. -/
theorem base_of_brought {body : Body}
    (within : body ∈ (definition.bases.map order ++ [definition.bases.map Class.body]).flatten) :
    ∃ base ∈ definition.bases, body ∈ base.order := by
  rw [List.flatten_append, List.mem_append, List.mem_flatten, List.flatten_singleton] at within
  rcases within with ⟨order, listed, inside⟩ | itself
  · obtain ⟨base, isBase, rfl⟩ := List.mem_map.mp listed
    exact ⟨base, isBase, inside⟩
  · obtain ⟨base, isBase, rfl⟩ := List.mem_map.mp itself
    exact ⟨base, isBase, List.mem_cons_self⟩

theorem Family.ids (family : Family classes) : ∀ cls ∈ classes, cls.outline.id = cls.body.id := by
  induction family with
  | base =>
    intro cls within
    obtain rfl := List.mem_singleton.mp within
    rfl
  | define _ _ _ defined ih =>
    intro cls within
    rcases List.mem_cons.mp within with rfl | before
    · exact (ids_of_define defined).2.trans (ids_of_define defined).1.symm
    · exact ih cls before

end Class

namespace Session
variable {session : Session} {source : ClassSource} {cls : Class} {classes : List Class} {labels : Labels}

theorem Labels.find_eq_ok {label : String} (found : labels.find label = .ok cls) :
    Entries.find? label labels = some cls := by
  unfold Labels.find at found
  cases stored : Entries.find? label labels with
  | none => simp [stored] at found
  | some other => simpa [stored] using found

theorem Labels.settings_eq_ok {label : String} {order : OptionsOrder Schema} (found : labels.settings label = .ok order) :
    ∃ cls, Entries.find? label labels = some cls ∧ cls.settings? = some (.given order) := by
  simp only [Labels.settings, bind_eq_ok] at found
  obtain ⟨cls, stored, found⟩ := found
  refine ⟨cls, Labels.find_eq_ok stored, ?_⟩
  split at found
  next given =>
    cases found
    exact given
  all_goals cases found

theorem OptionsSource.options_eq_ok {given : OptionsSource} {options : Options Schema}
    (made : given.options labels = .ok options) : options.typeProperty ≠ some .other := by
  simp only [OptionsSource.options, bind_eq_ok] at made
  obtain ⟨subtypes, -, same⟩ := made
  cases same
  cases given.typeProperty <;> simp

/-- Classes are drawn from those that the labels stand for. -/
theorem drawn_of_define {id : Nat} (labelled : ∀ entry ∈ labels, entry.2 ∈ classes)
    (defined : source.define labels id = .ok cls) :
    ∃ definition : Class.Definition, definition.DrawnFrom classes ∧
      (∀ entry ∈ definition.fields, ∃ given : FieldSource, given.field labels = .ok entry.2) ∧
      (∀ options ∈ definition.options, ∃ given : OptionsSource, given.options labels = .ok options) ∧
      Class.define id definition = .ok cls := by
  have known {label : String} {other : Class} (stored : Entries.find? label labels = some other) : other ∈ classes :=
    labelled _ (Entries.mem_of_find? stored)
  simp only [ClassSource.define, bind_eq_ok, mapError_eq_ok] at defined
  obtain ⟨bases, bring, fields, declare, options, give, extended, extend, defined⟩ := defined
  have given : ∀ own ∈ options, ∃ settings : OptionsSource, settings.options labels = .ok own := by
    rintro own ⟨rfl⟩
    cases written : source.options with
    | none =>
      rw [written] at give
      cases give
    | some settings =>
      rw [written, Option.mapM_some] at give
      obtain ⟨made, gives, same⟩ := bind_eq_ok.mp give
      cases same
      exact ⟨settings, gives⟩
  refine ⟨_, ⟨?_, ?_, ?_⟩, ?_, given, defined⟩
  · intro base within
    obtain ⟨label, -, found⟩ := mem_of_mapM bring within
    exact known (Labels.find_eq_ok found)
  · intro own within
    obtain ⟨settings, gives⟩ := given own within
    exact OptionsSource.options_eq_ok gives
  · cases written : source.options.bind OptionsSource.extended with
    | none =>
      rw [written] at extend
      cases extend
      exact .inl rfl
    | some label =>
      rw [written, Option.mapM_some] at extend
      obtain ⟨order, gives, same⟩ := bind_eq_ok.mp extend
      cases same
      obtain ⟨cls, stored, settings⟩ := Labels.settings_eq_ok gives
      exact .inr ⟨cls, known stored, settings⟩
  · intro entry within
    obtain ⟨written, -, declared⟩ := mem_of_mapM declare within
    obtain ⟨field, made, same⟩ := bind_eq_ok.mp declared
    cases same
    exact ⟨written.2, made⟩

/-- Classes that are made in a session come from each other. -/
theorem Defines.family {rootLabel : String} (defines : Defines rootLabel classes session) :
    Class.Family (classes.reverse ++ [Class.base]) ∧
    (∀ entry ∈ session.labels, entry.2 ∈ classes.reverse ++ [Class.base]) ∧
    ∀ cls ∈ classes.reverse ++ [Class.base], cls.body.id < session.nextId := by
  induction defines with
  | start =>
    refine ⟨.base, ?_, ?_⟩
    · intro entry within
      obtain rfl := List.mem_singleton.mp within
      exact List.mem_singleton_self _
    · intro cls within
      obtain rfl := List.mem_singleton.mp within
      exact Nat.lt_succ_self _
  | failed _ ih => exact ih
  | @made classes session source cls defines defined ih =>
    obtain ⟨family, labelled, numbered⟩ := ih
    obtain ⟨definition, drawn, -, -, made⟩ := drawn_of_define labelled defined
    rw [List.reverse_append, List.reverse_singleton, List.singleton_append, List.cons_append]
    have labels : (session.quiet.admitting source.label cls).labels = Entries.put source.label cls session.labels := rfl
    have nextId : (session.quiet.admitting source.label cls).nextId = session.nextId + 1 := rfl
    refine ⟨.define family numbered drawn made, ?_, ?_⟩
    · intro entry within
      rcases Entries.eq_or_mem_of_put (labels ▸ within) with rfl | before
      · exact List.mem_cons_self
      · exact List.mem_cons_of_mem _ (labelled entry before)
    · intro other within
      rw [nextId]
      rcases List.mem_cons.mp within with rfl | before
      · rw [(Class.ids_of_define made).1]
        exact Nat.lt_succ_self _
      · exact Nat.lt_succ_of_lt (numbered other before)

/-- A class that was made is one of classes that come from each other. -/
theorem family_of_made {rootLabel : String} {sources : List ClassSource} (made : cls ∈ ({ rootLabel } : Session).made sources) :
    ∃ classes, Class.Family classes ∧ cls ∈ classes :=
  ⟨_, (defines_run rootLabel sources).family.1, List.mem_append_left _ (List.mem_reverse.mpr made)⟩

end Session
end RecordAddress
