import RecordAddress.Proofs.Accesses
import RecordAddress.Proofs.Definitions

/-! What the steps of a session leave behind. A step does the same with and without the memory of what was opened
before, and as long as no record type changes hands, the steps after it do so too. -/

namespace RecordAddress
variable {registry later : Registry} {known larger : Schema → Prop}

/-- A class that holds a record type goes on holding it. -/
def Registry.KeepsHolders (before after : Registry) : Prop :=
  ∀ (recordType : String) (holder : Schema), before.find? (.text recordType) = some holder →
    (after.find? (.text recordType)).map Schema.id = some holder.id

/-- Whatever a reference leads to, it goes on leading to. -/
abbrev Registry.KeepsTargets (before after : Registry) : Prop :=
  ∀ reference target, before.target reference = .ok target → after.target reference = .ok target

theorem Registry.KeepsHolders.targets (keeps : registry.KeepsHolders later) (distinct : Distinct known)
    (knows : Session.Knows known registry) (laterKnows : Session.Knows known later) : registry.KeepsTargets later := by
  intro reference target found
  cases reference with
  | schema schema => exact found
  | named recordType =>
    simp only [Registry.target] at found
    cases held : registry.find? (.text recordType) with
    | none =>
      rw [held] at found
      cases found
    | some holder =>
      rw [held] at found
      cases found
      obtain ⟨same, heldLater, ids⟩ := Option.map_eq_some_iff.mp (keeps recordType target held)
      have one := distinct same target (Session.known_of_find? laterKnows heldLater) (Session.known_of_find? knows held) ids
      simp only [Registry.target, heldLater, one, Option.elim_some]

/-! What is trusted stays so while more classes are defined and registered. -/

section
variable {container : Container} {memory : Memory} (keeps : registry.KeepsTargets later)
  (within : ∀ schema, known schema → larger schema)
include keeps within

theorem Container.Trusted.mono (trusted : container.Trusted registry known) : container.Trusted later larger := by
  intro place standing
  exact (trusted place standing).mono keeps within

theorem Memory.Genuine.mono (genuine : memory.Genuine registry known) : memory.Genuine later larger := by
  intro place container remembered
  exact (genuine place container remembered).mono keeps within

theorem Pointer.Trusted.mono {pointer : Pointer} (trusted : pointer.Trusted registry known) :
    pointer.Trusted later larger := by
  induction pointer with
  | root container => exact Container.Trusted.mono keeps within trusted
  | property parent token target children ih =>
    exact ⟨ih trusted.1, fun container has => Container.Trusted.mono keeps within (trusted.2 container has)⟩
  | element parent token index ih => exact ih trusted

end

namespace Session
open Session.Action

variable {α β : Type} {session : Session} {action : Action α} {step : Step} {target : Schema}

/-- A sound session stays so while classes are defined and registered under record types of their own. -/
theorem Sound.grow (sound : session.Sound known) (within : ∀ schema, known schema → larger schema)
    (distinct : Distinct larger) {nextId : Nat} (fresh : ∀ schema, larger schema → schema.id < nextId)
    (keeps : session.context.registry.KeepsTargets later) (knows : Knows larger later) :
    ({ session with nextId, context := { session.context with registry := later } } : Session).Sound larger where
  unamended := sound.unamended
  distinct := distinct
  fresh := fresh
  memory := Memory.Genuine.mono keeps within sound.memory
  labels := fun entry inside => within _ (sound.labels entry inside)
  registry := knows
  spare := fun entry inside => within _ (sound.spare entry inside)
  pointers := fun entry inside => Pointer.Trusted.mono keeps within (sound.pointers entry inside)
  record := sound.record

/-- An action that does from a session what it does from the one without a memory. It leaves a session that is
sound again, unless a record type changes hands. -/
structure Action.Mirrors (known : Schema → Prop) (action : Action α) (session : Session) : Prop where
  same : action.run session.forgetting = ((action.run session).1, (action.run session).2.forgetting)
  sound : session.context.registry.KeepsHolders (action.run session).2.context.registry →
    (action.run session).2.Sound known

/-- An action that reads what a session holds besides its memory, and changes nothing. -/
def Action.Looks (action : Action α) : Prop :=
  ∀ session : Session, ∃ result, action.run session = (result, session) ∧
    action.run session.forgetting = (result, session.forgetting)

namespace Action.Looks
variable {next : α → Action β}

theorem pure (value : α) : (Pure.pure value : Action α).Looks := fun _ => ⟨.ok value, rfl, rfl⟩

theorem throw (failure : Failure) : (MonadExcept.throw failure : Action α).Looks := fun _ => ⟨.error failure, rfl, rfl⟩

theorem bind (looks : action.Looks) (further : ∀ value, (next value).Looks) : (action >>= next).Looks := by
  intro session
  obtain ⟨result, here, there⟩ := looks session
  cases result with
  | error failure =>
    refine ⟨.error failure, ?_, ?_⟩
    · rw [run_bind, here]
    · rw [run_bind, there]
  | ok value =>
    obtain ⟨result, laterHere, laterThere⟩ := further value session
    refine ⟨result, ?_, ?_⟩
    · rw [run_bind, here]
      exact laterHere
    · rw [run_bind, there]
      exact laterThere

theorem settle (read : Amendments → Except Value.Breakdown α) : (settle read).Looks := by
  intro session
  have reads (from_ : Session) : (Session.settle read).run from_ =
      ((read from_.context.amendments).mapError .ofBreakdown, from_) := by
    simp only [Session.settle, run_bind, run_amended]
    cases read from_.context.amendments <;> rfl
  exact ⟨_, reads session, reads session.forgetting⟩

theorem labelOf (schema : Schema) : (labelOf schema).Looks := by
  intro session
  have finds (label? : Option String) (from_ : Session) :
      (find .unlabelled label?).run from_ = (label?.elim (.error .unlabelled) .ok, from_) := by
    cases label? <;> rfl
  exact ⟨_, finds _ session, finds _ session.forgetting⟩

/-- What is only read leaves a sound session as it is. -/
theorem mirrors (looks : action.Looks) (sound : session.Sound known) : action.Mirrors known session := by
  obtain ⟨result, here, there⟩ := looks session
  refine ⟨?_, fun _ => ?_⟩
  · rw [here, there]
  · rw [here]
    exact sound

end Action.Looks

namespace Action.Mirrors
variable {good : α → Prop} {next : α → Action β}

theorem of_repeats (sound : session.Sound known) (repeats : action.Repeats session.context.registry known good) :
    action.Mirrors known session := by
  obtain ⟨result, opened, events, trusted, here, there, -⟩ := repeats session sound rfl
  refine ⟨?_, fun _ => ?_⟩
  · rw [here, there, forgetting_meeting]
  · rw [here]
    exact sound.meeting trusted events

theorem throw_bind {failure : Failure} (sound : session.Sound known) :
    (MonadExcept.throw failure >>= next).Mirrors known session := by
  have refused : (MonadExcept.throw failure >>= next).Repeats session.context.registry known fun _ => True := .throw_bind
  exact of_repeats sound refused

/-- What is looked up first makes no difference to what is done with it. -/
theorem after_repeats (sound : session.Sound known) (repeats : action.Repeats session.context.registry known good)
    (further : ∀ value, good value → ∀ after : Session, after.Sound known →
      after.context.registry = session.context.registry → (next value).Mirrors known after) :
    (action >>= next).Mirrors known session := by
  obtain ⟨result, opened, events, trusted, here, there, found⟩ := repeats session sound rfl
  have met := sound.meeting trusted events
  cases result with
  | error failure =>
    refine ⟨?_, fun _ => ?_⟩
    · rw [run_bind, run_bind, here, there, forgetting_meeting]
    · rw [run_bind, here]
      exact met
  | ok value =>
    obtain ⟨same, laterSound⟩ := further value (found value rfl) _ met rfl
    refine ⟨?_, fun keeps => ?_⟩
    · rw [run_bind, run_bind, here, there, ← forgetting_meeting]
      exact same
    · rw [run_bind, here] at keeps ⊢
      exact laterSound keeps

theorem get {next : Session → Action β} (indifferent : next session.forgetting = next session)
    (further : (next session).Mirrors known session) : (MonadState.get >>= next).Mirrors known session := by
  have reads (from_ : Session) : (MonadState.get >>= next).run from_ = (next from_).run from_ := rfl
  obtain ⟨same, sound⟩ := further
  refine ⟨?_, ?_⟩
  · rw [reads, reads, indifferent]
    exact same
  · rw [reads]
    exact sound

/-- A change of a session that does not concern what was opened. -/
theorem of_modify {change : Session → Session} (indifferent : change session.forgetting = (change session).forgetting)
    (sound : session.context.registry.KeepsHolders (change session).context.registry → (change session).Sound known) :
    (modify change : Action PUnit).Mirrors known session := by
  refine ⟨?_, ?_⟩
  · rw [run_modify, run_modify, indifferent]
  · rw [run_modify]
    exact sound

theorem after_modify {change : Session → Session} {next : PUnit → Action β}
    (indifferent : change session.forgetting = (change session).forgetting)
    (same : (change session).context.registry = session.context.registry)
    (further : (next ⟨⟩).Mirrors known (change session)) : (modify change >>= next).Mirrors known session := by
  obtain ⟨laterSame, sound⟩ := further
  refine ⟨?_, fun keeps => ?_⟩
  · rw [run_bind, run_bind, run_modify, run_modify, indifferent]
    exact laterSame
  · rw [run_bind, run_modify, ← same] at keeps
    rw [run_bind, run_modify]
    exact sound keeps

/-- What is read in the end makes no difference either. -/
theorem then_looks (mirrors : action.Mirrors known session) (looks : ∀ value, (next value).Looks) :
    (action >>= next).Mirrors known session := by
  obtain ⟨same, sound⟩ := mirrors
  rcases outcome : action.run session with ⟨result, after⟩
  rw [outcome] at same sound
  cases result with
  | error failure =>
    refine ⟨?_, ?_⟩
    · rw [run_bind, run_bind, outcome, same]
    · rw [run_bind, outcome]
      exact sound
  | ok value =>
    obtain ⟨result, here, there⟩ := looks value after
    refine ⟨?_, ?_⟩
    · rw [run_bind, run_bind, outcome, same]
      simp only [here, there]
    · rw [run_bind, outcome]
      simp only [here]
      exact sound

/-- What is changed in the end makes no difference, if it does not concern what was opened or registered. -/
theorem then_modify {change : Session → Session} {result : β} (mirrors : action.Mirrors known session)
    (indifferent : ∀ session : Session, change session.forgetting = (change session).forgetting)
    (steady : ∀ session : Session, (change session).context.registry = session.context.registry)
    (further : ∀ session : Session, session.Sound known → (change session).Sound known) :
    (do
      let _ ← action
      modify change
      return result).Mirrors known session := by
  obtain ⟨same, sound⟩ := mirrors
  rcases outcome : action.run session with ⟨value | failure, after⟩
  all_goals
    rw [outcome] at same sound
    refine ⟨?_, fun keeps => ?_⟩
  · rw [run_bind, run_bind, outcome, same]
  · rw [run_bind, outcome] at keeps ⊢
    exact sound keeps
  · rw [run_bind, run_bind, outcome, same]
    simp only [run_bind, run_modify, run_pure, indifferent]
  · rw [run_bind, outcome] at keeps ⊢
    simp only [run_bind, run_modify, run_pure, steady] at keeps ⊢
    exact further after (sound keeps)

end Action.Mirrors

/-! What steps change. -/

theorem keptAs_mirrors (sound : session.Sound known) (keep : Option String) {pointer : Pointer}
    (trusted : pointer.Trusted session.context.registry known) : (keptAs keep pointer).Mirrors known session := by
  cases keep with
  | none => exact Mirrors.of_repeats sound (unkept_repeats rfl pointer)
  | some name =>
    refine Mirrors.then_looks (Mirrors.of_modify rfl fun _ => ?_) fun _ => (Looks.settle _).bind fun summary => Looks.pure _
    refine { sound with pointers := ?_ }
    intro entry within
    rcases Entries.eq_or_mem_of_put within with rfl | before
    · exact trusted
    · exact sound.pointers entry before

theorem childOf_mirrors (sound : session.Sound known) {extend : Context → Opening Pointer.Fault Pointer}
    (repeats : (opening Failure.ofPointer extend).Repeats session.context.registry known
      (·.Trusted session.context.registry known)) (keep : Option String) : (childOf keep extend).Mirrors known session := by
  apply Mirrors.after_repeats sound repeats
  intro child childTrusted after afterSound same
  exact keptAs_mirrors afterSound keep (same ▸ childTrusted)

theorem setRecord_mirrors (sound : session.Sound known) {given : Given} (inert : given.isInert = true) :
    (run (.setRecord given)).Mirrors known session := by
  apply Mirrors.after_repeats sound (accept_repeats given)
  intro record recordInert after afterSound _
  refine Mirrors.then_looks (Mirrors.of_modify rfl fun _ => ?_) fun _ => Looks.pure _
  exact { afterSound with record := recordInert inert }

theorem runEdit_mirrors (sound : session.Sound known) (pointer : Pointer) {change : Edit}
    (inert : ∀ value, change.value? = some value → value.Inert) : (runEdit pointer change).Mirrors known session := by
  apply Mirrors.after_repeats sound Repeats.amended
  rintro amendments rfl after afterSound _
  split
  · exact Mirrors.throw_bind afterSound
  · have edits : (reading pointer fun context => pointer.edit context change).Repeats after.context.registry known
        (fun edited => edited.1.Inert) :=
      .reading (fun memory record recordInert => Pointer.edit_forgotten recordInert)
        fun record recordInert => Pointer.edit_inert recordInert inert
    apply Mirrors.after_repeats afterSound edits
    rintro ⟨record, outcome⟩ recordInert edited editedSound same
    have amends : (reading pointer fun context => pointer.amend context change).Repeats edited.context.registry known
        (· = {}) := by
      refine .reading ?_ fun record recordInert => Pointer.amend_of_inert recordInert
      intro memory record recordInert
      rw [Pointer.amend_of_inert recordInert, Pointer.amend_of_inert recordInert]
    apply Mirrors.after_repeats editedSound amends
    rintro amendments rfl amended amendedSound _
    refine Mirrors.after_modify ?_ ?_ ?_
    · rfl
    · rfl
    have written : Sound known { amended with record } := { amendedSound with record := recordInert }
    apply Mirrors.after_repeats written Repeats.raise_any
    intro prior _ settled settledSound _
    refine Mirrors.after_modify ?_ ?_ ?_
    · rfl
    · rfl
    have unamended : Sound known { settled with context := { settled.context with amendments := {} } } :=
      { settledSound with unamended := rfl }
    apply Mirrors.after_repeats unamended (Repeats.report _)
    intro _ _ reported reportedSound _
    exact (Looks.pure _).mirrors reportedSound

/-! Definitions and registrations. -/

theorem knows_insert (knows : Knows known registry) (isKnown : known target) (recordType : Value) :
    Knows known (registry.insert recordType target) := by
  intro entry within
  unfold Registry.insert at within
  split at within
  · obtain ⟨before, inside, same⟩ := List.mem_map.mp within
    split at same
    · cases same
      exact isKnown
    · cases same
      exact knows _ inside
  · rcases List.mem_append.mp within with inside | last
    · exact knows _ inside
    · obtain rfl := List.mem_singleton.mp last
      exact isKnown

theorem registered_repeats {chosen : Registry} (knows : Knows known chosen) (isKnown : known target) :
    (registered chosen target).Repeats registry known (Knows known) := by
  apply Repeats.amended.bind
  intro amendments _
  apply Repeats.settle_any.bind
  intro recordType _
  dsimp only
  split
  · exact .throw_bind
  · have inserted : (Pure.pure (chosen.insert recordType target) : Action Registry).Repeats registry known (Knows known) :=
      .pure (knows_insert knows isKnown recordType)
    split
    · apply Repeats.find_any.bind
      intro name _
      apply (Repeats.report _).bind
      intro _ _
      exact inserted
    · exact inserted

theorem register_mirrors (sound : session.Sound known) (isKnown : known target) :
    (register target).Mirrors known session := by
  refine Mirrors.get rfl ?_
  apply Mirrors.after_repeats sound (registered_repeats sound.registry isKnown)
  intro registry knows after afterSound same
  refine Mirrors.of_modify rfl fun keeps => ?_
  have targets := keeps.targets afterSound.distinct afterSound.registry knows
  exact afterSound.grow (fun _ holds => holds) afterSound.distinct afterSound.fresh targets knows

theorem registerSpare_mirrors (sound : session.Sound known) (isKnown : known target) :
    (registerSpare target).Mirrors known session := by
  refine Mirrors.get rfl ?_
  apply Mirrors.after_repeats sound (registered_repeats sound.spare isKnown)
  intro spare knows after afterSound _
  exact Mirrors.of_modify rfl fun _ => { afterSound with spare := knows }

theorem id_of_define {labels : Labels} {id : Nat} {source : ClassSource} {cls : Class}
    (defined : source.define labels id = .ok cls) : cls.outline.id = id := by
  simp only [ClassSource.define, bind_eq_ok] at defined
  obtain ⟨bases, -, fields, -, options, -, extended, -, defined⟩ := defined
  exact (Class.ids_of_define (mapError_eq_ok.mp defined)).2

/-- A session that a class was made in. -/
theorem Sound.making (sound : session.Sound known) {cls : Class} (made : cls.outline.id = session.nextId) :
    ({ session with nextId := session.nextId + 1 } : Session).Sound fun schema => known schema ∨ schema = cls.outline := by
  have fresh := sound.fresh
  refine sound.grow (fun _ => .inl) ?_ ?_ (fun _ _ found => found) fun entry inside => .inl (sound.registry entry inside)
  · rintro first second (firstKnown | rfl) (secondKnown | rfl) ids
    · exact sound.distinct _ _ firstKnown secondKnown ids
    · have below := fresh first firstKnown
      omega
    · have below := fresh second secondKnown
      omega
    · rfl
  · rintro schema (isKnown | rfl)
    · exact Nat.lt_succ_of_lt (fresh schema isKnown)
    · omega

theorem Sound.storing (sound : session.Sound known) {cls : Class} (isKnown : known cls.outline) (label : String) :
    ({ session with labels := Entries.put label cls session.labels } : Session).Sound known := by
  refine { sound with labels := ?_ }
  intro entry within
  rcases Entries.eq_or_mem_of_put within with rfl | before
  · exact isKnown
  · exact sound.labels entry before

private def labelsNow (session : Session) : List (String × Class) :=
  session.labels.map fun (label, cls) => (label, session.context.amendments.classOf cls)

theorem define_mirrors (sound : session.Sound known) (source : ClassSource) :
    ∃ larger, (define source).Mirrors larger session := by
  generalize labelled : labelsNow session = labels
  unfold labelsNow at labelled
  cases defined : source.define labels session.nextId with
  | error fault =>
    refine ⟨known, Mirrors.get rfl ?_⟩
    simp only [labelled, defined]
    exact Mirrors.throw_bind sound
  | ok cls =>
    have made := sound.making (id_of_define defined)
    refine ⟨fun schema => known schema ∨ schema = cls.outline, Mirrors.get rfl ?_⟩
    simp only [labelled, defined]
    rw [show raise .ofDefinition (Except.ok cls) = (pure cls : Action Class) from rfl, pure_bind]
    have unchanged : session.context.amendments.withClass cls = session.context.amendments := by
      rw [sound.unamended]
      rfl
    refine Mirrors.after_modify ?_ ?_ ?_
    · rfl
    · rfl
    simp only [unchanged]
    have isKnown : known cls.outline ∨ cls.outline = cls.outline := .inr rfl
    cases offered : cls.schema? with
    | none =>
      refine Mirrors.then_looks ?_ fun _ => Looks.pure _
      exact Mirrors.of_modify rfl fun _ => made.storing isKnown source.label
    | some schema =>
      obtain ⟨rfl, -⟩ := Class.schema_of_schema? offered
      apply (register_mirrors made isKnown).then_modify
      · exact fun _ => rfl
      · exact fun _ => rfl
      · exact fun after afterSound => afterSound.storing isKnown source.label

/-! Steps. -/

/-- Whether the step gives no pointers to the record. -/
def Step.isPlain : Step → Bool
  | .add _ value | .replace _ value | .setRecord value => value.isInert
  | _ => true

private theorem edit_mirrors (sound : session.Sound known) (source : PointerSource) {given : Given}
    (inert : given.isInert = true) (change : Value → Edit) (gives : ∀ value, (change value).value? = some value) :
    (do
      let pointer ← source.pointer
      runEdit pointer (change (← given.accept)) : Action Answer).Mirrors known session := by
  apply Mirrors.after_repeats sound (pointer_repeats source)
  intro pointer _ found foundSound _
  apply Mirrors.after_repeats foundSound (accept_repeats given)
  intro value valueInert accepted acceptedSound _
  apply runEdit_mirrors acceptedSound
  intro other same
  cases (gives value).symm.trans same
  exact valueInert inert

private theorem registration_mirrors (sound : session.Sound known) (choice : RegistryChoice) (label : String) :
    (run (.register choice label)).Mirrors known session := by
  apply Mirrors.after_repeats sound (labelled_repeats label)
  intro cls isKnown after afterSound _
  have tells (_ : PUnit) : (do return .label (← labelOf cls.outline) : Action Answer).Looks :=
    (Looks.labelOf _).bind fun _ => Looks.pure _
  cases choice with
  | shared => exact (register_mirrors afterSound isKnown).then_looks tells
  | spare => exact (registerSpare_mirrors afterSound isKnown).then_looks tells

/-- A step does the same with and without a memory, unless a record type changes hands. -/
theorem run_mirrors (sound : session.Sound known) (plain : step.isPlain = true) :
    ∃ larger, (run step).Mirrors larger session := by
  cases step with
  | parse type pointer dashAllowed byClass keep =>
    rw [run_parse]
    refine ⟨known, Mirrors.after_repeats sound (parsing_repeats type pointer dashAllowed byClass) ?_⟩
    intro pointer trusted after afterSound same
    exact keptAs_mirrors afterSound keep (same ▸ trusted)
  | child parent token dashAllowed keep =>
    refine ⟨known, Mirrors.after_repeats sound (pointer_repeats parent) ?_⟩
    intro above trusted after afterSound same
    split
    · exact childOf_mirrors afterSound (extending_repeats (same ▸ trusted) dashAllowed _) keep
    · exact (Looks.throw _).mirrors afterSound
  | divide parent token keep =>
    refine ⟨known, Mirrors.after_repeats sound (pointer_repeats parent) ?_⟩
    intro above trusted after afterSound same
    exact childOf_mirrors afterSound (dividing_repeats (same ▸ trusted) token) keep
  | parseRegistered choice key pointer dashAllowed keep =>
    rw [run_parseRegistered]
    refine ⟨known, Mirrors.after_repeats sound (parsingRegistered_repeats choice key pointer dashAllowed) ?_⟩
    intro pointer trusted after afterSound same
    exact keptAs_mirrors afterSound keep (same ▸ trusted)
  | add pointer value => exact ⟨known, edit_mirrors sound pointer plain .add fun _ => rfl⟩
  | replace pointer value => exact ⟨known, edit_mirrors sound pointer plain .replace fun _ => rfl⟩
  | remove pointer =>
    refine ⟨known, Mirrors.after_repeats sound (pointer_repeats pointer) ?_⟩
    intro pointer _ after afterSound _
    exact runEdit_mirrors afterSound pointer nofun
  | setRecord value => exact ⟨known, setRecord_mirrors sound plain⟩
  | define source =>
    obtain ⟨larger, mirrors⟩ := define_mirrors sound source
    refine ⟨larger, mirrors.then_looks fun cls => ?_⟩
    split
    · apply (Looks.settle _).bind
      intro recordType
      apply (Looks.settle _).bind
      intro fields
      exact Looks.pure _
    · exact Looks.pure _
  | register choice label => exact ⟨known, registration_mirrors sound choice label⟩
  | chain | compare | location | get | trace | describe | field | container | bind | registered
  | registeredContainer | recordTypes | report | encode =>
    exact ⟨known, Mirrors.of_repeats sound (access_repeats rfl)⟩

end Session
end RecordAddress
