import RecordAddress.Proofs.Declarations
import RecordAddress.Proofs.Registering

/-! The record types that classes are registered under. A class is of the record type that its own settings give, else
of the one that the settings come to which they extend, and else of its name. Settings that a class merely inherits
give it no record type. -/

namespace RecordAddress

namespace Class
variable {classes : List Class} {cls : Class} {definition : Definition} {id : Nat} {recordType : String}

/-- The class gives the record type in settings of its own. -/
def Titles (cls : Class) (recordType : String) : Prop :=
  ∃ own extended, cls.body.settings = some (.given ((cls.body.id, own) :: extended)) ∧
    own.recordType = some (some recordType)

/-- Whatever record type the options give is given by one of the classes. -/
def TitledAmong (classes : List Class) (options : Options Schema) : Prop :=
  ∀ recordType, options.recordType = some (some recordType) → ∃ cls ∈ classes, cls.Titles recordType

theorem TitledAmong.over {own inherited : Options Schema} (titled : TitledAmong classes own)
    (further : TitledAmong classes inherited) : TitledAmong classes (own.over inherited) := by
  intro recordType given
  cases first : own.recordType with
  | none => exact further recordType (by simpa [Options.over, first] using given)
  | some => exact titled recordType (by simpa [Options.over, first] using given)

/-- A class has the settings of its body. Without any, another value may stand in their place. -/
theorem settings_of_define (defined : Class.define id definition = .ok cls) :
    cls.body.settings = (definition.ownOptions cls.body.id).map .given ∨
    definition.options = none ∧ cls.body.settings = some (.value {}) := by
  rw [(ids_of_define defined).1]
  obtain ⟨ancestors, -, ⟨schema, declared, -, rfl⟩ | ⟨body, mixin, rfl⟩⟩ := define_cases defined
  · exact .inl rfl
  · exact mixin.settings

theorem titles_iff (defined : Class.define id definition = .ok cls) :
    cls.Titles recordType ↔ ∃ own, definition.options = some own ∧ own.recordType = some (some recordType) := by
  unfold Titles
  rcases settings_of_define defined with settings | ⟨nothing, settings⟩
  · rw [settings, Definition.ownOptions]
    cases definition.options <;> simp
  · simp [settings, nothing]

theorem Family.titled (family : Family classes) : ∀ cls ∈ classes, cls.Sets (TitledAmong classes) := by
  induction family with
  | base =>
    intro cls within body inside settings has
    obtain rfl := List.mem_singleton.mp within
    obtain rfl := List.mem_singleton.mp inside
    cases has
    rintro own listed recordType given
    obtain rfl := List.mem_singleton.mp listed
    cases given
  | @define classes id definition newest _ _ drawn defined ih =>
    have earlier : ∀ options, TitledAmong classes options → TitledAmong (newest :: classes) options := by
      intro options titled recordType given
      obtain ⟨former, known, titles⟩ := titled recordType given
      exact ⟨former, List.mem_cons_of_mem _ known, titles⟩
    intro cls within
    rcases List.mem_cons.mp within with rfl | before
    · refine sets_of_define drawn (fun other known => (ih other known).mono earlier) nofun ?_ defined
      intro own given recordType titled
      exact ⟨cls, List.mem_cons_self, (titles_iff defined).mpr ⟨own, given, titled⟩⟩
    · exact (ih cls before).mono earlier

/-- The record type that extended settings come to is given by one of the classes. -/
theorem Family.titled_of_settings (family : Family classes) (within : cls ∈ classes) {order : OptionsOrder Schema}
    (settings : cls.settings? = some (.given order)) : TitledAmong classes order.effective := by
  have titled := (family.titled cls within).options nofun fun _ _ => TitledAmong.over
  rwa [settings] at titled

/-- What a class body makes of its record type. -/
theorem Definition.recordType_eq (definition : Definition) :
    definition.recordType =
      match definition.options.bind fun own => own.recordType <|> definition.extended.effective.recordType with
      | some (some given) => if given = "" then definition.name else given
      | _ => definition.name := by
  unfold Definition.recordType Definition.ownOptions
  cases definition.options with
  | none => rfl
  | some own =>
    have same : (OptionsOrder.effective ((0, own) :: definition.extended)).recordType =
        (own.recordType <|> definition.extended.effective.recordType) := rfl
    simp only [Option.map_some, Option.bind_some]
    rw [← same]
    rcases OptionsOrder.effective ((0, own) :: definition.extended) with ⟨_ | _ | given, _, _, _⟩ <;> rfl

theorem Definition.given_of_recordType (other : definition.recordType ≠ definition.name) :
    ∃ own recordType, definition.options = some own ∧ recordType ≠ "" ∧
      (own.recordType <|> definition.extended.effective.recordType) = some (some recordType) := by
  rw [Definition.recordType_eq] at other
  split at other
  next given comes =>
    split at other
    · exact absurd rfl other
    next named =>
      obtain ⟨own, written, comes⟩ := Option.bind_eq_some_iff.mp comes
      exact ⟨own, given, written, named, comes⟩
  next => exact absurd rfl other

theorem recordType_of_define (defined : Class.define id definition = .ok cls) (isSchema : cls.outline.isMixin = false) :
    cls.outline.recordType = definition.recordType := by
  obtain ⟨ancestors, -, ⟨schema, declared, made, rfl⟩ | ⟨body, -, rfl⟩⟩ := define_cases defined
  · obtain ⟨_, _, _, -, -, -, rfl⟩ := schema_eq_ok made
    rfl
  · cases isSchema

/-- A schema is of the record type that it gives itself, unless that is empty. -/
theorem Family.recordType_of_titles (family : Family classes) (within : cls ∈ classes)
    (isSchema : cls.outline.isMixin = false) (titles : cls.Titles recordType) (named : recordType ≠ "") :
    cls.outline.recordType = recordType := by
  induction family with
  | base =>
    obtain rfl := List.mem_singleton.mp within
    obtain ⟨own, extended, settings, given⟩ := titles
    cases settings
    cases given
  | define _ _ _ defined ih =>
    rcases List.mem_cons.mp within with rfl | before
    · obtain ⟨own, written, given⟩ := (titles_iff defined).mp titles
      rw [recordType_of_define defined isSchema, Definition.recordType_eq, written]
      simp [given, named]
    · exact ih before

end Class

namespace Session
variable {session : Session} {source : ClassSource} {labels : Labels} {id : Nat} {cls : Class} {target : Schema}
  {recordType : String}

/-- The class text gives the record type itself. -/
def ClassSource.Titles (source : ClassSource) (recordType : String) : Prop :=
  recordType ≠ "" ∧ ∃ options, source.options = some options ∧ options.recordType = some (some recordType)

/-- The class text says nothing of its record type, and the settings that it extends come to one. -/
def ClassSource.TakesOver (labels : Labels) (source : ClassSource) (recordType : String) : Prop :=
  recordType ≠ "" ∧ ∃ options label order, source.options = some options ∧ options.recordType = none ∧
    options.extended = some label ∧ labels.settings label = .ok order ∧
    order.effective.recordType = some (some recordType)

/-- What a class text hands on to the definition of its class. -/
theorem definition_of_source (defined : source.define labels id = .ok cls) :
    ∃ definition : Class.Definition, definition.name = source.name ∧
      definition.options.map Options.recordType = source.options.map OptionsSource.recordType ∧
      (source.options.bind OptionsSource.extended = none → definition.extended = []) ∧
      (∀ label, source.options.bind OptionsSource.extended = some label →
        labels.settings label = .ok definition.extended) ∧
      Class.define id definition = .ok cls := by
  simp only [ClassSource.define, bind_eq_ok, mapError_eq_ok] at defined
  obtain ⟨bases, -, fields, -, options, give, extended, extend, defined⟩ := defined
  refine ⟨_, rfl, ?_, ?_, ?_, defined⟩
  · cases written : source.options with
    | none =>
      rw [written] at give
      cases give
      rfl
    | some given =>
      rw [written, Option.mapM_some] at give
      obtain ⟨own, made, same⟩ := bind_eq_ok.mp give
      cases same
      simp only [OptionsSource.options, bind_eq_ok] at made
      obtain ⟨_, -, same⟩ := made
      cases same
      rfl
  · intro nothing
    rw [nothing] at extend
    cases extend
    rfl
  · intro label written
    rw [written, Option.mapM_some] at extend
    obtain ⟨order, found, same⟩ := bind_eq_ok.mp extend
    cases same
    exact found

/-- What a class text makes of its record type. -/
theorem recordType_of_source (defined : source.define labels id = .ok cls) (isSchema : cls.outline.isMixin = false) :
    (∀ recordType, source.Titles recordType → cls.outline.recordType = recordType) ∧
    (∀ recordType, source.TakesOver labels recordType → cls.outline.recordType = recordType) ∧
    ((∀ recordType, ¬ source.Titles recordType) → (∀ recordType, ¬ source.TakesOver labels recordType) →
      cls.outline.recordType = source.name) := by
  obtain ⟨definition, name, settings, alone, extending, defined⟩ := definition_of_source defined
  rw [Class.recordType_of_define defined isSchema, ← name]
  refine ⟨?_, ?_, ?_⟩
  · rintro recordType ⟨named, given, written, own⟩
    obtain ⟨options, present, same⟩ := Option.map_eq_some_iff.mp (settings.trans (congrArg _ written))
    simp [Class.Definition.recordType_eq, present, same, own, named]
  · rintro recordType ⟨named, given, label, order, written, unset, extended, found, comes⟩
    obtain ⟨options, present, same⟩ := Option.map_eq_some_iff.mp (settings.trans (congrArg _ written))
    have further := extending label (by rw [written, Option.bind_some, extended])
    obtain rfl := Except.ok.inj (found.symm.trans further)
    simp [Class.Definition.recordType_eq, present, same, unset, comes, named]
  · intro untitled takesNone
    by_contra other
    obtain ⟨options, recordType, present, named, comes⟩ := Class.Definition.given_of_recordType other
    obtain ⟨given, written, same⟩ := Option.map_eq_some_iff.mp (settings.symm.trans (congrArg _ present))
    rw [← same] at comes
    cases own : given.recordType with
    | some title =>
      rw [own] at comes
      obtain rfl : title = some recordType := by simpa using comes
      exact untitled recordType ⟨named, given, written, own⟩
    | none =>
      rw [own] at comes
      cases extended : given.extended with
      | none =>
        rw [alone (by rw [written, Option.bind_some, extended])] at comes
        cases comes
      | some label =>
        have found := extending label (by rw [written, Option.bind_some, extended])
        exact takesNone recordType ⟨named, given, label, _, written, own, extended, found, by simpa using comes⟩

theorem defining_snoc (sources : List ClassSource) :
    session.defining (sources ++ [source]) = (step (.define source) (session.defining sources)).2 := by
  induction sources generalizing session with
  | nil => rfl
  | cons first rest ih => exact ih

variable {rootLabel : String} {classes : List Class}

/-- A class that a definition adds to those that were made before. -/
theorem Defines.of_made (defines : Defines rootLabel classes session)
    (made : ((define source).run session).1.toOption.toList = [cls]) :
    source.define session.labels session.nextId = .ok cls ∧
    (Session.step (.define source) session).2 = session.quiet.admitting source.label cls := by
  cases outcome : source.define session.labels session.nextId with
  | error fault =>
    rw [run_define_failed defines.unamended outcome] at made
    cases made
  | ok other =>
    rw [run_define_made defines.unamended outcome] at made
    cases made
    obtain ⟨_, stepped⟩ := step_of_made defines.unamended outcome
    exact ⟨rfl, congrArg Prod.snd stepped⟩

/-- A schema that is added is found under its record type, and all else as before. -/
theorem Defines.find?_admitting (defines : Defines rootLabel classes session) (offered : cls.schema? = some target)
    (label : String) (recordType : String) :
    (session.quiet.admitting label cls).context.registry.find? (.text recordType) =
      if target.recordType = recordType then some target else session.context.registry.find? (.text recordType) := by
  have inserted : (session.quiet.admitting label cls).context.registry =
      session.context.registry.insert (.text target.recordType) target := by
    simp [admitting, registering, Session.quiet, offered]
  rw [inserted, defines.registry_eq, Registry.insert_ofEntries (Entries.ofList_nodup _), Registry.find?_ofEntries,
    Registry.find?_ofEntries, Entries.find?_put]

/-- The record type of a schema that was made is held by a class that is older than all that are to come. -/
theorem Defines.holds (defines : Defines rootLabel classes session) {former : Schema}
    (within : former ∈ classes.filterMap Class.schema?) :
    ∃ held, session.context.registry.find? (.text former.recordType) = some held ∧ held.id < session.nextId := by
  have present : (latest? (classes.filterMap Class.schema?) former.recordType).isSome = true :=
    List.find?_isSome.mpr ⟨former, List.mem_reverse.mpr within, by simp⟩
  obtain ⟨held, found⟩ := Option.isSome_iff_exists.mp present
  refine ⟨held, ?_, defines.older (mem_of_latest? found)⟩
  rw [defines.registry_eq, Registry.find?_ofEntries, find?_registrations, found]

/-- A record type that a schema gave itself is held, by that schema or by one that displaced it. -/
theorem Defines.holds_given (defines : Defines rootLabel classes session) (within : cls ∈ classes)
    (isSchema : cls.schema?.isSome = true) (titles : cls.Titles recordType) (named : recordType ≠ "") :
    ∃ held, session.context.registry.find? (.text recordType) = some held ∧ held.id < session.nextId := by
  obtain ⟨schema, offered⟩ := Option.isSome_iff_exists.mp isSchema
  obtain ⟨rfl, isSchema⟩ := Class.schema_of_schema? offered
  have known := List.mem_append_left [Class.base] (List.mem_reverse.mpr within)
  have same := defines.family.1.recordType_of_titles known isSchema titles named
  rw [← same]
  exact defines.holds (List.mem_filterMap.mpr ⟨cls, within, offered⟩)

/-- Settings that come to a record type have it from a class that was made. -/
theorem Defines.titled_of_settings (defines : Defines rootLabel classes session) {label : String}
    {order : OptionsOrder Schema} (found : session.labels.settings label = .ok order)
    (comes : order.effective.recordType = some (some recordType)) : ∃ former ∈ classes, former.Titles recordType := by
  obtain ⟨family, labelled, -⟩ := defines.family
  obtain ⟨other, stored, settings⟩ := Labels.settings_eq_ok found
  have known := labelled _ (Entries.mem_of_find? stored)
  obtain ⟨former, within, titles⟩ := family.titled_of_settings known settings recordType comes
  rcases List.mem_append.mp within with before | base
  · exact ⟨former, List.mem_reverse.mp before, titles⟩
  · obtain rfl := List.mem_singleton.mp base
    obtain ⟨own, extended, settings, given⟩ := titles
    cases settings
    cases given

/-- A class is registered under the record type that its own settings give, else under the one that they take over from
settings that they extend, and else under its name. In the last case no other class is displaced if nothing was
registered under the name. A record type that is taken over was given by a class made before, and if that is a schema
then a class that was registered under it is always displaced. -/
theorem record_types_pass_by_extension_only (rootLabel : String) (sources : List ClassSource) (source : ClassSource)
    {cls : Class} {target : Schema}
    (made : ({ rootLabel } : Session).made (sources ++ [source]) = ({ rootLabel } : Session).made sources ++ [cls])
    (offered : cls.schema? = some target) :
    let session := ({ rootLabel } : Session).defining sources
    let after := ({ rootLabel } : Session).defining (sources ++ [source])
    (∀ recordType, source.Titles recordType → target.recordType = recordType) ∧
    (∀ recordType, source.TakesOver session.labels recordType → target.recordType = recordType ∧
      ∃ former ∈ ({ rootLabel } : Session).made sources, former.Titles recordType ∧
        (former.schema?.isSome = true →
          ∃ held, session.context.registry.find? (.text recordType) = some held ∧ held.id ≠ target.id)) ∧
    ((∀ recordType, ¬ source.Titles recordType) → (∀ recordType, ¬ source.TakesOver session.labels recordType) →
      target.recordType = source.name ∧
      (session.context.registry.find? (.text source.name) = none → ∀ recordType former,
        session.context.registry.find? (.text recordType) = some former →
          after.context.registry.find? (.text recordType) = some former)) ∧
    ∀ recordType, after.context.registry.find? (.text recordType) =
      if target.recordType = recordType then some target else session.context.registry.find? (.text recordType) := by
  intro session after
  have defines : Defines rootLabel (({ rootLabel } : Session).made sources) session := defines_run rootLabel sources
  rw [made_snoc, List.append_cancel_left_eq] at made
  obtain ⟨defined, admitted⟩ := defines.of_made made
  obtain ⟨rfl, isSchema⟩ := Class.schema_of_schema? offered
  obtain ⟨own, takenOver, named⟩ := recordType_of_source defined isSchema
  have registered (recordType : String) : after.context.registry.find? (.text recordType) =
      if cls.outline.recordType = recordType then some cls.outline
      else session.context.registry.find? (.text recordType) := by
    rw [← defines.find?_admitting offered source.label, ← admitted, ← defining_snoc]
  have numbered : cls.outline.id = session.nextId := by
    obtain ⟨definition, -, -, -, -, defined⟩ := definition_of_source defined
    exact (Class.ids_of_define defined).2
  refine ⟨own, ?_, ?_, registered⟩
  · intro recordType takes
    refine ⟨takenOver recordType takes, ?_⟩
    obtain ⟨nonempty, options, label, order, -, -, -, found, comes⟩ := takes
    obtain ⟨former, before, titles⟩ := defines.titled_of_settings found comes
    refine ⟨former, before, titles, ?_⟩
    intro isSchema
    obtain ⟨held, holds, older⟩ := defines.holds_given before isSchema titles nonempty
    exact ⟨held, holds, numbered ▸ Nat.ne_of_lt older⟩
  · intro untitled takesNone
    have same := named untitled takesNone
    refine ⟨same, ?_⟩
    intro free recordType former found
    rw [registered, if_neg, found]
    rintro rfl
    rw [same, free] at found
    cases found

/-- A class without fields below a draft. -/
def memo (options : Option OptionsSource) : ClassSource where
  name := "Memo"
  label := "Memo"
  bases := ["Draft"]
  isMixin := false
  fields := []
  options := options

/-- Drafts are notes, and a memo that inherits their settings is not. -/
theorem memo_leaves_the_draft :
    ∃ cls target former,
      ({ rootLabel := "Draft" } : Session).made ([entitled "Draft" "Note"] ++ [memo none]) =
        ({ rootLabel := "Draft" } : Session).made [entitled "Draft" "Note"] ++ [cls] ∧
      cls.schema? = some target ∧ target.recordType = "Memo" ∧ former.name = "Draft" ∧
      (({ rootLabel := "Draft" } : Session).defining ([entitled "Draft" "Note"] ++ [memo none])).context.registry.find?
        (.text "Note") = some former := by
  have computed : (((define (memo none)).run
        (({ rootLabel := "Draft" } : Session).defining [entitled "Draft" "Note"])).1.toOption.any fun cls =>
        cls.schema?.isSome) = true ∧
      ((({ rootLabel := "Draft" } : Session).defining [entitled "Draft" "Note"]).context.registry.find?
        (.text "Memo")).isNone = true ∧
      ((({ rootLabel := "Draft" } : Session).defining [entitled "Draft" "Note"]).context.registry.find?
        (.text "Note")).any (fun former => former.name = "Draft") = true := by
    decide +kernel
  simp only [Option.any_eq_true, Option.isSome_iff_exists, Option.isNone_iff_eq_none, decide_eq_true_eq] at computed
  obtain ⟨⟨cls, defined, target, offered⟩, free, former, found, draft⟩ := computed
  have made : ({ rootLabel := "Draft" } : Session).made ([entitled "Draft" "Note"] ++ [memo none]) =
      ({ rootLabel := "Draft" } : Session).made [entitled "Draft" "Note"] ++ [cls] := by
    rw [made_snoc, defined]
    rfl
  obtain ⟨-, -, named, -⟩ := record_types_pass_by_extension_only "Draft" [entitled "Draft" "Note"] (memo none) made offered
  have untitled : ∀ recordType, ¬ (memo none).Titles recordType := by
    rintro recordType ⟨-, options, written, -⟩
    cases written
  have takesNone : ∀ recordType, ¬ (memo none).TakesOver
      (({ rootLabel := "Draft" } : Session).defining [entitled "Draft" "Note"]).labels recordType := by
    rintro recordType ⟨-, options, _, _, written, -⟩
    cases written
  obtain ⟨same, keeps⟩ := named untitled takesNone
  exact ⟨cls, target, former, made, offered, same, draft, keeps free "Note" former found⟩

/-- A memo that extends the settings of drafts and says nothing of its record type is a note as well, and displaces
them. -/
theorem extending_memo_displaces_the_draft :
    let options : OptionsSource := { extended := some "Draft" }
    let before := (({ rootLabel := "Draft" } : Session).defining [entitled "Draft" "Note"]).context.registry
    let after := (({ rootLabel := "Draft" } : Session).defining
      [entitled "Draft" "Note", memo (some options)]).context.registry
    options.recordType = none ∧ (before.find? (.text "Memo")).isNone = true ∧
    (before.find? (.text "Note")).map Schema.name = some "Draft" ∧
    (after.find? (.text "Note")).map Schema.name = some "Memo" ∧ (after.find? (.text "Memo")).isNone = true := by
  decide +kernel

end Session
end RecordAddress
