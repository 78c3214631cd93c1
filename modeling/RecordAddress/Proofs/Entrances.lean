import RecordAddress.Proofs.Accesses
import RecordAddress.Proofs.Defining
import RecordAddress.Proofs.Recurrence

/-! The ways to parse a text for a class. Three of them ask the class itself for its container, and one looks for its
record type in the registry, where another class may be found by then. Those that come to the same schema come to the
same pointer, or fail alike, whichever of them is taken first. -/

namespace RecordAddress

/-- What is registered last is found. -/
theorem Registry.find?_insert (registry : Registry) (recordType : String) (target : Schema) :
    (registry.insert (.text recordType) target).find? (.text recordType) = some target := by
  unfold insert
  split
  next present =>
    obtain ⟨former, found⟩ := Option.isSome_iff_exists.mp present
    obtain ⟨entry, within, rfl⟩ := Option.map_eq_some_iff.mp found
    have same : entry.1.isSame (.text recordType) = true := by simpa using List.find?_some within
    have kept (entry : Value × Schema) :
        (if entry.1.isSame (.text recordType) then (entry.1, target) else entry).1.isSame (.text recordType) =
          entry.1.isSame (.text recordType) := by
      split <;> rfl
    simp only [find?, List.find?_map, Function.comp_def, kept, within, Option.map_some, same, ite_true]
  next absent =>
    have missing : (registry.entries.find? fun entry => entry.1.isSame (.text recordType)) = none := by
      simpa [find?] using absent
    simp [find?, List.find?_append, missing, Value.isSame]

namespace Session
variable {session : Session} {cls : Class} {schema : Schema} {dashAllowed : Bool} {text : String}
  {keep : Option String}

/-- A value that stands where an operation is looked for is told of alike, whether the class or its container is
asked for. -/
def Failure.asTold : Failure → Failure
  | .container .hidden => .hidden
  | failure => failure

/-- Both leave the same, and come to the same or fail alike. -/
structure Alike {α : Type} (first second : Except Failure α × Session) : Prop where
  outcome : first.1.mapError Failure.asTold = second.1.mapError Failure.asTold
  after : first.2 = second.2

namespace Alike
variable {α β : Type} {first second third : Except Failure α × Session}

theorem refl (result : Except Failure α × Session) : Alike result result :=
  ⟨rfl, rfl⟩

theorem symm (alike : Alike first second) : Alike second first :=
  ⟨alike.outcome.symm, alike.after.symm⟩

theorem trans (alike : Alike first second) (further : Alike second third) : Alike first third :=
  ⟨alike.outcome.trans further.outcome, alike.after.trans further.after⟩

/-- What is done afterwards is alike as well. -/
theorem bind {one other : Action α} (alike : Alike (one.run session) (other.run session)) (next : α → Action β) :
    Alike ((one >>= next).run session) ((other >>= next).run session) := by
  obtain ⟨outcome, after⟩ := alike
  rw [run_bind, run_bind]
  cases oneRuns : one.run session with
  | mk oneResult oneAfter =>
    cases otherRuns : other.run session with
    | mk otherResult otherAfter =>
      rw [oneRuns, otherRuns] at outcome after
      obtain rfl : oneAfter = otherAfter := after
      cases oneResult with
      | error failure =>
        cases otherResult with
        | error other => exact ⟨congrArg Except.error (Except.error.inj outcome), rfl⟩
        | ok => cases outcome
      | ok value =>
        cases otherResult with
        | error => cases outcome
        | ok other =>
          obtain rfl : value = other := Except.ok.inj outcome
          exact .refl _

end Alike

/-- Takes an action like a step. -/
def taking (action : Action Answer) (session : Session) : Outcome × Session :=
  let ((answer, events), session) := act action session
  (⟨answer, events⟩, session)

def Outcome.asTold (outcome : Outcome) : Outcome :=
  { outcome with answer := outcome.answer.mapError Failure.asTold }

theorem taking_eq (action : Action Answer) :
    taking action session =
      (⟨(action.run session.quiet).1, (action.run session.quiet).2.events⟩, (action.run session.quiet).2) := rfl

theorem Alike.taking {one other : Action Answer} (alike : Alike (one.run session.quiet) (other.run session.quiet)) :
    (taking one session).1.asTold = (taking other session).1.asTold ∧ (taking one session).2 = (taking other session).2 := by
  simp only [taking_eq, Outcome.asTold, alike.outcome, alike.after, and_self]

/-- The ways to parse a text for a class. -/
inductive Entrance where
  /-- The class is given to the function. -/
  | function
  /-- The class is asked to parse by itself. -/
  | method
  /-- The container of the class is given to the function. -/
  | container
  /-- The registry is asked to parse for the class. -/
  | registry
  deriving DecidableEq

namespace Entrance

/-- The step in which the class of a label is asked for. -/
def step (label text : String) (dashAllowed : Bool) (keep : Option String) : Entrance → Step
  | function => .parse (.label label) (.plain (.text text)) dashAllowed false keep
  | method => .parse (.label label) (.plain (.text text)) dashAllowed true keep
  | container => .parse (.container label) (.plain (.text text)) dashAllowed false keep
  | registry => .parseRegistered .shared (.label label) (.plain (.text text)) dashAllowed keep

/-- The container that a text is parsed below. -/
def opened (cls : Class) : Entrance → Action Container
  | function => (Target.ofClass cls).toContainer
  | method => (Target.ofClass cls).ownContainer
  | container => do rootContainer (← offering .rootContainer cls)
  | registry => do rootContainer (← (Target.ofClass cls).schemaIn (← RegistryChoice.shared.registry))

/-- What is answered to a text that is parsed for a class. -/
def answer (entrance : Entrance) (cls : Class) (dashAllowed : Bool) (text : String) (keep : Option String) :
    Action Answer := do
  keptAs keep (← parseAt (← entrance.opened cls) dashAllowed (.text text))

/-- The schema that is come to. A hidden method leads to none, and the registry to the class that holds the record
type now. -/
def schema? (registered : Registry) (cls : Class) : Entrance → Option Schema
  | function | container => cls.schema?
  | method => cls.schema?.filter fun schema => !schema.hidden.contains .parse
  | registry => cls.schema?.bind fun schema => registered.find? (.text schema.recordType)

/-- In a step, the class of the label is looked up and then asked. -/
theorem run_step (entrance : Entrance) (label : String) :
    run (entrance.step label text dashAllowed keep) =
      labelled label >>= fun cls => entrance.answer cls dashAllowed text keep := by
  cases entrance with
  | function =>
    simp only [step, run, TypeSource.target, bind_assoc, pure_bind]
    refine congrArg _ (funext fun cls => ExceptT.ext (funext fun session => ?_))
    simp [answer, opened, Given.acceptBare, Given.value, Datum.value, run_bind, Target.shows, run_amended]
  | method =>
    simp only [step, run, TypeSource.target, bind_assoc, pure_bind]
    refine congrArg _ (funext fun cls => ExceptT.ext (funext fun session => ?_))
    cases hidden : session.context.amendments.hides cls.outline .parse <;> cases offered : cls.schema? <;>
      simp [answer, opened, Given.acceptBare, Given.value, Datum.value, run_bind, Target.shows, run_amended,
        Target.ownContainer, offering, find, hidden, offered]
  | container =>
    simp [step, run, TypeSource.target, Given.acceptBare, Given.value, Datum.value, answer, opened, Target.toContainer,
      Target.shows]
  | registry => simp [step, run, TypeSource.target, Given.acceptBare, Given.value, Datum.value, answer, opened]

variable {entrance : Entrance}

private theorem rootContainer_hidden (unamended : session.context.amendments = {})
    (hidden : schema.hidden.contains Operation.rootContainer = true) :
    (rootContainer schema).run session = (.error (.container .hidden), session) := by
  have refused : session.context.root schema = .error .hidden := by
    simp only [Context.root, unamended, Amendments.isEmpty_unchanged, ite_true, Container.root, hidden]
    rfl
  rw [rootContainer, run_opening, Context.rootOpening, refused]
  rfl

/-- Entrances open the container of the schema that they come to, or fail as that does. -/
theorem opened_alike (unamended : session.context.amendments = {})
    (comes : entrance.schema? session.context.registry cls = some schema) :
    Alike ((entrance.opened cls).run session) ((rootContainer schema).run session) := by
  cases entrance with
  | function =>
    have offered : cls.schema? = some schema := comes
    simp only [opened, Target.toContainer, classContainer, offered]
    exact .refl _
  | method =>
    obtain ⟨offered, shown⟩ := Option.filter_eq_some_iff.mp comes
    have shown : schema.hidden.contains Operation.parse = false := by simpa using shown
    obtain ⟨rfl, -⟩ := Class.schema_of_schema? offered
    simp only [opened, Target.ownContainer, offering, run_bind, run_amended, unamended, Amendments.hides_unchanged,
      shown, Bool.false_eq_true, ite_false, offered, find, run_pure]
    exact .refl _
  | container =>
    have offered : cls.schema? = some schema := comes
    obtain ⟨same, -⟩ := Class.schema_of_schema? offered
    simp only [opened, offering, run_bind, run_amended, unamended, Amendments.hides_unchanged, ← same, offered, find]
    cases hidden : schema.hidden.contains Operation.rootContainer with
    | false => exact .refl _
    | true =>
      rw [rootContainer_hidden unamended hidden]
      exact ⟨rfl, rfl⟩
  | registry =>
    obtain ⟨target, offered, found⟩ := Option.bind_eq_some_iff.mp comes
    obtain ⟨rfl, isSchema⟩ := Class.schema_of_schema? offered
    have hashable : (Value.text cls.outline.recordType).isHashable = true := rfl
    simp only [opened, RegistryChoice.registry, Target.schemaIn, entryOf, settle, run_bind, run_get, run_pure, run_amended,
      unamended, Amendments.recordType_unchanged isSchema, run_raise_ok, hashable, Bool.not_true, Bool.false_eq_true,
      ite_false, found, find]
    exact .refl _

end Entrance

/-! What is done at every entrance. -/

/-- What comes of a text that is parsed below the root container of a schema. -/
def entering (schema : Schema) (dashAllowed : Bool) (text : String) (keep : Option String) : Action Answer := do
  keptAs keep (← parseAt (← rootContainer schema) dashAllowed (.text text))

theorem Entrance.answer_alike {entrance : Entrance} (unamended : session.context.amendments = {})
    (comes : entrance.schema? session.context.registry cls = some schema) :
    Alike ((entrance.answer cls dashAllowed text keep).run session)
      ((entering schema dashAllowed text keep).run session) :=
  (opened_alike unamended comes).bind _

theorem run_keptAs (unamended : session.context.amendments = {}) (pointer : Pointer) :
    (keptAs keep pointer).run session =
      (((PointerSummary.of {} pointer).mapError Failure.ofBreakdown).map .pointer,
        { session with pointers := keep.elim session.pointers fun name => Entries.put name pointer session.pointers }) := by
  cases keep <;> cases summarized : PointerSummary.of {} pointer <;>
    simp [keptAs, settle, run_bind, run_amended, unamended, summarized] <;> rfl

variable {container : Container}

/-- What is answered and reported depends only on what comes of parsing. -/
def answered (container : Container) (text : String) (parsed : Except Pointer.Fault Pointer) : Outcome :=
  match parsed, ({} : Amendments).written container with
  | .error fault, _ => ⟨.error (.ofPointer fault), []⟩
  | .ok _, .error breakdown => ⟨.error (.ofBreakdown breakdown), []⟩
  | .ok pointer, .ok written =>
    ⟨((PointerSummary.of {} pointer).mapError Failure.ofBreakdown).map .pointer,
      [.parsed text written]⟩

theorem taking_entering (unamended : session.context.amendments = {})
    (root : session.context.root schema = .ok container) :
    let memory := session.context.memory.remember container
    let parsed := Pointer.parse { registry := session.context.registry, memory } container dashAllowed (.text text)
    (taking (entering schema dashAllowed text keep) session).1 = answered container text parsed.outcome ∧
      (taking (entering schema dashAllowed text keep) session).2.context =
        { registry := session.context.registry, memory := memory.rememberAll parsed.opened } := by
  intro memory parsed
  have opened : (rootContainer schema).run session.quiet = (.ok container, session.quiet.keeping [container]) := by
    rw [rootContainer, run_opening, Context.rootOpening, show session.quiet.context.root schema = _ from root]
    rfl
  have inner : (session.quiet.keeping [container]).context = { registry := session.context.registry, memory } := by
    rw [← unamended]
    rfl
  have further : ((session.quiet.keeping [container]).keeping parsed.opened).context =
      { registry := session.context.registry, memory := memory.rememberAll parsed.opened } := by
    rw [← unamended]
    rfl
  have later : ((session.quiet.keeping [container]).keeping parsed.opened).context.amendments = {} := unamended
  have same : Pointer.parse (session.quiet.keeping [container]).context container dashAllowed (.text text) = parsed := by
    rw [inner]
  have named : find .tooManyDigits (Value.text text).display? = pure text := rfl
  simp only [taking_eq, entering, parseAt, settle, run_bind, opened, run_opening, same, answered, named, run_pure]
  cases outcome : parsed.outcome with
  | error fault => exact ⟨rfl, further⟩
  | ok pointer =>
    cases writes : ({} : Amendments).written container with
    | error breakdown =>
      simp only [Except.mapError, run_amended, later, writes, run_raise_error]
      exact ⟨rfl, further⟩
    | ok written =>
      simp only [Except.mapError, run_amended, later, writes, run_raise_ok, run_report]
      rw [run_keptAs]
      · exact ⟨rfl, further⟩
      · exact later

theorem taking_entering_refused {fault : Container.Fault} (refused : session.context.root schema = .error fault) :
    taking (entering schema dashAllowed text keep) session = (⟨.error (.container fault), []⟩, session.quiet) := by
  have opened : (rootContainer schema).run session.quiet = (.error (.container fault), session.quiet) := by
    rw [rootContainer, run_opening, Context.rootOpening, show session.quiet.context.root schema = _ from refused]
    rfl
  simp only [taking_eq, entering, run_bind, opened]
  rfl

/-- Sessions in which nothing was changed of classes, and in which what was opened stays. -/
structure Settled (session : Session) : Prop where
  unamended : session.context.amendments = {}
  lasting : session.context.memory.Lasting

namespace Settled

theorem root_eq (settled : session.Settled) (schema : Schema) :
    session.context.root schema =
      ({ registry := session.context.registry, memory := session.context.memory } : Context).root schema := by
  rw [← settled.unamended]

/-- The root container of a schema stands where it is asked for. -/
theorem opens (settled : session.Settled) (root : session.context.root schema = .ok container) :
    (∃ origin, container.Opens origin { ground := .schema schema.id }) ∧ session.context.memory.Admits container := by
  rw [settled.root_eq] at root
  obtain ⟨-, -, opened⟩ := Context.root_eq_ok.mp root
  exact Context.opens_of_opener settled.lasting opened

theorem after_entering (settled : session.Settled) : (taking (entering schema dashAllowed text keep) session).2.Settled := by
  cases root : session.context.root schema with
  | error fault =>
    rw [taking_entering_refused root]
    exact ⟨settled.unamended, settled.lasting⟩
  | ok container =>
    obtain ⟨⟨origin, opens⟩, -⟩ := settled.opens root
    obtain ⟨-, context⟩ := @taking_entering session schema dashAllowed text keep container settled.unamended root
    have described : container.Described := ⟨origin, _, opens⟩
    refine ⟨by rw [context], ?_⟩
    rw [context]
    exact Pointer.lasting_after_parse (settled.lasting.remember described) described (.text text)

theorem registry_after_entering (settled : session.Settled) :
    (taking (entering schema dashAllowed text keep) session).2.context.registry = session.context.registry := by
  cases root : session.context.root schema with
  | error fault =>
    rw [taking_entering_refused root]
    rfl
  | ok container => rw [(taking_entering settled.unamended root).2]

/-- The second time a text is parsed for a schema, the same comes of it. -/
theorem entering_again (settled : session.Settled) :
    (taking (entering schema dashAllowed text keep) (taking (entering schema dashAllowed text keep) session).2).1 =
      (taking (entering schema dashAllowed text keep) session).1 := by
  cases root : session.context.root schema with
  | error fault =>
    rw [taking_entering_refused root]
    exact congrArg Prod.fst (taking_entering_refused root)
  | ok container =>
    obtain ⟨⟨origin, opens⟩, admits⟩ := settled.opens root
    obtain ⟨answers, context⟩ := @taking_entering session schema dashAllowed text keep container settled.unamended root
    generalize (taking (entering schema dashAllowed text keep) session).2 = after at context ⊢
    have lasting := settled.lasting.remember ⟨origin, _, opens⟩
    -- the root container is held from the first time on, and parsing below it recurs
    have rootAgain : after.context.root schema = .ok container := by
      have holds := settled.lasting.holds_remember admits
      rw [settled.root_eq] at root
      rw [context]
      exact Context.root_again settled.lasting root (holds.mono (Memory.grows_rememberAll _ _))
    obtain ⟨answersAgain, -⟩ := @taking_entering after schema dashAllowed text keep container (by rw [context]) rootAgain
    have shallow : ∀ outer ∈ [container], outer.depth ≤ container.depth := by
      intro outer within
      obtain rfl := List.mem_singleton.mp within
      exact Nat.le_refl _
    rw [answersAgain, answers, context]
    have recurs := @Pointer.parse_recurs session.context.registry _ _ _ _ lasting opens dashAllowed (.text text)
    exact congrArg (answered container text ·.outcome) (recurs.again_after lasting shallow)

end Settled

/-! Whole runs. -/

theorem step_enter {entrance : Entrance} {label : String} (unamended : session.context.amendments = {})
    (found : Entries.find? label session.labels = some cls) :
    step (entrance.step label text dashAllowed keep) session =
      taking (entrance.answer cls dashAllowed text keep) session := by
  have labelled : (labelled label).run session.quiet = (.ok cls, session.quiet) := by
    have same : session.quiet.context.amendments = {} := unamended
    have stored : Entries.find? label session.quiet.labels = some cls := found
    simp only [Session.labelled, run_bind, run_get, stored, find, run_pure, same]
    rfl
  rw [step, taking, act_eq, act_eq, Entrance.run_step, run_bind, labelled]

/-- What is done in a session: classes are defined, and texts are parsed for those of the labels. -/
inductive Move where
  | define (source : ClassSource)
  | enter (entrance : Entrance) (label text : String) (dashAllowed : Bool) (keep : Option String)

def Move.step : Move → Step
  | define source => .define source
  | enter entrance label text dashAllowed keep => entrance.step label text dashAllowed keep

/-- The session after all of the moves, whatever came of them. -/
def moving (session : Session) (moves : List Move) : Session :=
  moves.foldl (fun session move => (step move.step session).2) session

namespace Settled

theorem define (settled : session.Settled) (source : ClassSource) : (step (.define source) session).2.Settled := by
  cases outcome : source.define session.labels session.nextId with
  | error fault =>
    rw [step_of_failed settled.unamended outcome]
    exact ⟨settled.unamended, settled.lasting⟩
  | ok cls =>
    obtain ⟨answer, stepped⟩ := step_of_made settled.unamended outcome
    rw [stepped]
    refine ⟨unamended_admitting settled.unamended, ?_⟩
    have same : (session.quiet.admitting source.label cls).context.memory = session.context.memory := by
      unfold admitting
      cases cls.schema? <;> rfl
    rw [same]
    exact settled.lasting

/-- Whatever is asked to parse, it does so for a schema or not at all. -/
theorem opened_cases (settled : session.Settled) (entrance : Entrance) (cls : Class) :
    (∃ failure, (entrance.opened cls).run session = (.error failure, session)) ∨
      ∃ schema, Alike ((entrance.opened cls).run session) ((rootContainer schema).run session) := by
  have asks (operation : Operation) : (∃ failure, (offering operation cls).run session = (.error failure, session)) ∨
      ∃ schema, (offering operation cls).run session = (.ok schema, session) := by
    simp only [offering, run_bind, run_amended]
    cases session.context.amendments.hides cls.outline operation with
    | true => exact .inl ⟨_, rfl⟩
    | false =>
      cases cls.schema? with
      | none => exact .inl ⟨_, rfl⟩
      | some schema => exact .inr ⟨_, rfl⟩
  cases entrance with
  | function =>
    cases offered : cls.schema? with
    | none => exact .inl ⟨_, by simp only [Entrance.opened, Target.toContainer, classContainer, offered]; rfl⟩
    | some schema => exact .inr ⟨schema, Entrance.opened_alike settled.unamended offered⟩
  | method =>
    obtain ⟨failure, refused⟩ | ⟨schema, asked⟩ := asks .parse
    · exact .inl ⟨failure, by simp only [Entrance.opened, Target.ownContainer, run_bind, refused]⟩
    · exact .inr ⟨schema, by simp only [Entrance.opened, Target.ownContainer, run_bind, asked]; exact .refl _⟩
  | container =>
    obtain ⟨failure, refused⟩ | ⟨schema, asked⟩ := asks .rootContainer
    · exact .inl ⟨failure, by simp only [Entrance.opened, run_bind, refused]⟩
    · exact .inr ⟨schema, by simp only [Entrance.opened, run_bind, asked]; exact .refl _⟩
  | registry =>
    simp only [Entrance.opened, RegistryChoice.registry, Target.schemaIn, entryOf, settle, run_bind, run_get, run_pure,
      run_amended]
    cases session.context.amendments.setting cls.outline Amendments.recordTypeKey with
    | error breakdown => exact .inl ⟨_, rfl⟩
    | ok recordType =>
      simp only [run_raise_ok]
      cases hashable : recordType.isHashable with
      | false => exact .inl ⟨_, rfl⟩
      | true =>
        simp only [Bool.not_true, Bool.false_eq_true, ite_false]
        cases session.context.registry.find? recordType with
        | none => exact .inl ⟨_, rfl⟩
        | some schema => exact .inr ⟨schema, .refl _⟩

theorem enter (settled : session.Settled) (entrance : Entrance) (label text : String) (dashAllowed : Bool)
    (keep : Option String) : (step (entrance.step label text dashAllowed keep) session).2.Settled := by
  have quiet : session.quiet.Settled := ⟨settled.unamended, settled.lasting⟩
  cases found : Entries.find? label session.labels with
  | none =>
    have stored : Entries.find? label session.quiet.labels = none := found
    simp only [step, act_eq, Entrance.run_step, labelled, run_bind, run_get, stored, find, run_throw]
    exact quiet
  | some cls =>
    rw [step_enter settled.unamended found]
    obtain ⟨failure, refused⟩ | ⟨schema, alike⟩ := quiet.opened_cases entrance cls
    · simp only [taking, act_eq, Entrance.answer, run_bind, refused]
      exact quiet
    · have same : Alike ((entrance.answer cls dashAllowed text keep).run session.quiet)
          ((entering schema dashAllowed text keep).run session.quiet) := alike.bind _
      rw [same.taking.2]
      exact settled.after_entering

theorem moving (settled : session.Settled) (moves : List Move) : (session.moving moves).Settled := by
  refine List.foldlRecOn moves _ settled fun session settled move _ => ?_
  cases move with
  | define source => exact settled.define source
  | enter entrance label text dashAllowed keep => exact settled.enter entrance label text dashAllowed keep

end Settled

/-- After any definitions and whatever was parsed before, entrances that come to the same schema answer the same or
fail alike, and leave the same. Nor does it matter which of them a text was parsed at first. -/
theorem entrances_agree (rootLabel : String) (moves : List Move) {first second : Entrance} {cls other : Class}
    {schema : Schema}
    (comes : first.schema? (({ rootLabel } : Session).moving moves).context.registry cls = some schema)
    (likewise : second.schema? (({ rootLabel } : Session).moving moves).context.registry other = some schema)
    (dashAllowed : Bool) (text : String) (keep : Option String) :
    let session := ({ rootLabel } : Session).moving moves
    let one := taking (first.answer cls dashAllowed text keep) session
    let two := taking (second.answer other dashAllowed text keep) session
    one.1.asTold = two.1.asTold ∧ one.2 = two.2 ∧
      (taking (second.answer other dashAllowed text keep) one.2).1.asTold = one.1.asTold := by
  intro session one two
  have settled : session.Settled := Settled.moving ⟨rfl, Memory.lasting_of_empty⟩ moves
  let entry := entering schema dashAllowed text keep
  let after := (taking entry session).2
  have entered : Alike ((first.answer cls dashAllowed text keep).run session.quiet) (entry.run session.quiet) :=
    Entrance.answer_alike settled.unamended comes
  have otherEntered : Alike ((second.answer other dashAllowed text keep).run session.quiet) (entry.run session.quiet) :=
    Entrance.answer_alike settled.unamended likewise
  obtain ⟨answers, leaves⟩ := (entered.trans otherEntered.symm).taking
  refine ⟨answers, leaves, ?_⟩
  -- the classes are found as before, so that the other entrance still comes to the schema
  have comesAfter : second.schema? after.context.registry other = some schema := by
    rw [settled.registry_after_entering]
    exact likewise
  have enteredAfter : Alike ((second.answer other dashAllowed text keep).run after.quiet) (entry.run after.quiet) :=
    Entrance.answer_alike settled.after_entering.unamended comesAfter
  calc (taking (second.answer other dashAllowed text keep) one.2).1.asTold
    _ = (taking (second.answer other dashAllowed text keep) after).1.asTold := by rw [entered.taking.2]
    _ = (taking entry after).1.asTold := enteredAfter.taking.1
    _ = (taking entry session).1.asTold := congrArg _ settled.entering_again
    _ = one.1.asTold := entered.taking.1.symm

/-- A class that was just defined is come to at all entrances, unless its method is hidden. -/
theorem comes_to_new_class {label : String} (offered : cls.schema? = some schema)
    (shown : schema.hidden.contains Operation.parse = false) (entrance : Entrance) :
    entrance.schema? (session.admitting label cls).context.registry cls = some schema := by
  cases entrance with
  | function | container => exact offered
  | method => rw [Entrance.schema?, offered, Option.filter_some, shown, Bool.not_false, if_pos rfl]
  | registry =>
    simp only [Entrance.schema?, offered, Option.bind_some, admitting, Option.elim_some, registering]
    exact Registry.find?_insert _ _ _

/-- A class with one field of the key. -/
def holding (name : String) (bases : List String) (isMixin : Bool) (key : String) (recordType : Option String) :
    ClassSource where
  name := name
  label := name
  bases := bases
  isMixin := isMixin
  fields := [(key, .scalar "string" "" "")]
  options := recordType.map fun name => { recordType := some (some name) }

def draft : ClassSource := holding "Draft" [Schema.base.name] false "title" (some "Note")

theorem draft_is_parsed_at_all_entrances :
    let session := ({ rootLabel := "Draft" } : Session).moving [.define draft]
    ∃ cls, Entries.find? "Draft" session.labels = some cls ∧
      (taking (Entrance.function.answer cls true "/title" none) session).1.answer.isOk ∧
      ∀ first second : Entrance,
        (taking (first.answer cls true "/title" none) session).1.asTold =
          (taking (second.answer cls true "/title" none) session).1.asTold := by
  intro session
  have start : ({ rootLabel := "Draft" } : Session).context.amendments = {} := rfl
  have computed : (draft.define ({ rootLabel := "Draft" } : Session).labels 1).toOption.any fun cls =>
      cls.schema?.any fun schema => schema.hidden.contains Operation.parse = false ∧
        (taking (Entrance.function.answer cls true "/title" none) session).1.answer.isOk := by
    decide +kernel
  simp only [Option.any_eq_true, decide_eq_true_eq] at computed
  obtain ⟨cls, made, schema, offered, shown, parsed⟩ := computed
  obtain ⟨answer, stepped⟩ := step_of_made start (toOption_eq_some.mp made)
  have same : session = ({ rootLabel := "Draft" } : Session).quiet.admitting "Draft" cls := congrArg Prod.snd stepped
  have comes (entrance : Entrance) : entrance.schema? session.context.registry cls = some schema := by
    rw [same]
    exact comes_to_new_class offered shown entrance
  refine ⟨cls, ?_, parsed, fun first second => ?_⟩
  · rw [same]
    exact (Entries.find?_put _ _ _ _).trans (if_pos rfl)
  · exact (entrances_agree "Draft" [.define draft] (comes first) (comes second) true "/title" none).1

def takeover : List Move := [.define draft, .define (holding "Memo" [Schema.base.name] false "body" (some "Note"))]

def shadowing : List Move := [
  .define (holding "Parsed" [] true "parse" none),
  .define (holding "Order" ["Parsed", Schema.base.name] false "title" none)]

/-- The registry parses for the class that took the record type over, and a method that a mixin hides parses nothing. -/
theorem entrances_can_disagree :
    (∀ entrance : Entrance, (step (entrance.step "Draft" "/title" true none)
      (({ rootLabel := "Draft" } : Session).moving takeover)).1.answer.isOk = decide (entrance ≠ .registry)) ∧
    (∀ entrance : Entrance, (step (entrance.step "Order" "/title" true none)
      (({ rootLabel := "Order" } : Session).moving shadowing)).1.answer.isOk = decide (entrance ≠ .method)) := by
  refine ⟨fun entrance => ?_, fun entrance => ?_⟩ <;> cases entrance <;> decide +kernel

end Session
end RecordAddress
