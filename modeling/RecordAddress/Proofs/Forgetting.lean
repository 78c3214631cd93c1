import RecordAddress.Proofs.Actions
import RecordAddress.Proofs.Inert
import RecordAddress.Proofs.Reopening

/-! Sessions that remember no containers. Actions that only look containers up come to the same with and
without the memory of what was opened before, and leave nothing but such a memory and events behind. -/

namespace RecordAddress.Session

/-- The session that opens every container anew. -/
def forgetting (session : Session) : Session :=
  { session with context := { session.context with memory := .forgetful } }

/-- The session after containers were opened and events reported. -/
def meeting (session : Session) (opened : List Container) (events : List Event) : Session :=
  { session.keeping opened with events := session.events ++ events }

/-- What holds of sessions of known classes, which nothing was changed of. The containers of pointers and of
the memory are those that are opened from the registry. -/
structure Sound (known : Schema → Prop) (session : Session) : Prop where
  unamended : session.context.amendments = {}
  distinct : Distinct known
  fresh : ∀ schema, known schema → schema.id < session.nextId
  memory : session.context.memory.Genuine session.context.registry known
  labels : ∀ entry ∈ session.labels, known entry.2.outline
  registry : ∀ entry ∈ session.context.registry.entries, known entry.2
  spare : ∀ entry ∈ session.spare.entries, known entry.2
  pointers : ∀ entry ∈ session.pointers, entry.2.Trusted session.context.registry known
  record : session.record.Inert

/-- An action that does the same whatever was opened before: it has one result, and leaves no more than
trusted containers and events. -/
def Action.Repeats {α : Type} (registry : Registry) (known : Schema → Prop) (action : Action α) (good : α → Prop) : Prop :=
  ∀ session : Session, session.Sound known → session.context.registry = registry →
    ∃ result opened events, (∀ container ∈ opened, container.Trusted registry known) ∧
      action.run session = (result, session.meeting opened events) ∧
      action.run session.forgetting = (result, session.forgetting.meeting opened events) ∧
      ∀ value, result = .ok value → good value

variable {α β ε : Type} {registry : Registry} {known : Schema → Prop} {session : Session}

@[simp] theorem meeting_nothing : session.meeting [] [] = session := by
  simp [meeting, keeping, Memory.rememberAll]

theorem keeping_eq_meeting (opened : List Container) : session.keeping opened = session.meeting opened [] := by
  simp [meeting, keeping]

theorem meeting_meeting (first second : List Container) (events further : List Event) :
    (session.meeting first events).meeting second further = session.meeting (first ++ second) (events ++ further) := by
  simp [meeting, keeping, Memory.rememberAll_append]

/-- A session without a memory remembers nothing of what it meets. -/
theorem forgetting_meeting (opened : List Container) (events : List Event) :
    (session.meeting opened events).forgetting = session.forgetting.meeting opened events := by
  simp [meeting, keeping, forgetting, Memory.forgetful_remembers_nothing]

namespace Sound

theorem context_eq (sound : session.Sound known) :
    session.context = { registry := session.context.registry, memory := session.context.memory } := by
  have unamended := sound.unamended
  rcases session with ⟨_, _, _, ⟨registry, memory, amendments⟩⟩
  cases unamended
  rfl

theorem forgetting_context (sound : session.Sound known) :
    session.forgetting.context = { registry := session.context.registry, memory := .forgetful } := by
  have unamended := sound.unamended
  rcases session with ⟨_, _, _, ⟨registry, memory, amendments⟩⟩
  cases unamended
  rfl

theorem meeting (sound : session.Sound known) {opened : List Container}
    (trusted : ∀ container ∈ opened, container.Trusted session.context.registry known) (events : List Event) :
    (session.meeting opened events).Sound known :=
  { sound with memory := sound.memory.rememberAll trusted }

end Sound

namespace Action.Repeats
variable {good : α → Prop} {fine : β → Prop} {action : Action α}

theorem weaken {better : α → Prop} (repeats : action.Repeats registry known better)
    (holds : ∀ value, better value → good value) : action.Repeats registry known good := by
  intro session sound same
  obtain ⟨result, opened, events, trusted, here, there, found⟩ := repeats session sound same
  exact ⟨result, opened, events, trusted, here, there, fun value success => holds value (found value success)⟩

theorem pure {value : α} (holds : good value) : (Pure.pure value : Action α).Repeats registry known good := by
  intro session sound same
  refine ⟨.ok value, [], [], nofun, ?_, ?_, ?_⟩
  · rw [meeting_nothing, run_pure]
  · rw [meeting_nothing, run_pure]
  · rintro other success
    cases success
    exact holds

theorem throw {failure : Failure} : (MonadExcept.throw failure : Action α).Repeats registry known good := by
  intro session sound same
  refine ⟨.error failure, [], [], nofun, ?_, ?_, nofun⟩
  · rw [meeting_nothing]
    rfl
  · rw [meeting_nothing]
    rfl

theorem bind {next : α → Action β} (repeats : action.Repeats registry known good)
    (further : ∀ value, good value → (next value).Repeats registry known fine) :
    (action >>= next).Repeats registry known fine := by
  intro session sound same
  obtain ⟨result, opened, events, trusted, here, there, found⟩ := repeats session sound same
  cases result with
  | error failure =>
    refine ⟨.error failure, opened, events, trusted, ?_, ?_, nofun⟩
    · rw [run_bind, here]
    · rw [run_bind, there]
  | ok value =>
    subst same
    have later := sound.meeting trusted events
    obtain ⟨result, laterOpened, laterEvents, laterTrusted, laterHere, laterThere, laterFound⟩ :=
      further value (found value rfl) _ later rfl
    refine ⟨result, opened ++ laterOpened, events ++ laterEvents, ?_, ?_, ?_, laterFound⟩
    · intro container within
      exact (List.mem_append.mp within).elim (trusted container) (laterTrusted container)
    · rw [run_bind, here]
      simp only [laterHere, meeting_meeting]
    · rw [run_bind, there, ← forgetting_meeting]
      show (next value).run _ = _
      rw [laterThere, forgetting_meeting, meeting_meeting]

theorem throw_bind {failure : Failure} {next : α → Action β} :
    (MonadExcept.throw failure >>= next).Repeats registry known fine := by
  have stops : (MonadExcept.throw failure : Action α).Repeats registry known fun _ => False := throw
  exact stops.bind fun _ impossible => impossible.elim

/-- What is looked up in a session need not depend on its memory. -/
theorem get {next : Session → Action β} (further : ∀ session : Session, session.Sound known →
      session.context.registry = registry → ∃ action, next session = action ∧ next session.forgetting = action ∧
        action.Repeats registry known fine) : (MonadState.get >>= next).Repeats registry known fine := by
  intro session sound same
  obtain ⟨action, here, there, repeats⟩ := further session sound same
  have reads (from_ : Session) : (MonadState.get >>= next).run from_ = (next from_).run from_ := rfl
  rw [reads, reads, here, there]
  exact repeats session sound same

theorem raise {failure : ε → Failure} {outcome : Except ε α} (found : ∀ value, outcome = .ok value → good value) :
    (raise failure outcome).Repeats registry known good := by
  cases outcome with
  | ok value => exact pure (found value rfl)
  | error fault => exact throw

theorem raise_any {failure : ε → Failure} {outcome : Except ε α} :
    (Session.raise failure outcome).Repeats registry known fun _ => True :=
  raise fun _ _ => trivial

theorem find {failure : Failure} {value? : Option α} (found : ∀ value, value? = some value → good value) :
    (find failure value?).Repeats registry known good := by
  cases value? with
  | some value => exact pure (found value rfl)
  | none => exact throw

theorem find_any {failure : Failure} {value? : Option α} :
    (Session.find failure value?).Repeats registry known fun _ => True :=
  find fun _ _ => trivial

theorem amended : amended.Repeats registry known (· = {}) := by
  apply get
  intro session sound same
  exact ⟨_, rfl, rfl, pure sound.unamended⟩

theorem settle {read : Amendments → Except Value.Breakdown α} (found : ∀ value, read {} = .ok value → good value) :
    (settle read).Repeats registry known good := by
  apply amended.bind
  rintro amendments rfl
  exact raise found

theorem settle_any {read : Amendments → Except Value.Breakdown α} :
    (Session.settle read).Repeats registry known fun _ => True :=
  settle fun _ _ => trivial

theorem report (event : Event) : (report event).Repeats registry known fun _ => True := by
  intro session sound same
  exact ⟨.ok ⟨⟩, [], [event], nofun, rfl, rfl, fun _ _ => trivial⟩

/-- What an opening does is the same if the opening is. -/
theorem opening {failure : ε → Failure} {run : Context → Opening ε α}
    (repeats : Distinct known → ∀ memory : Memory, memory.Genuine registry known →
      (run { registry, memory }).Repeats registry known (run { registry, memory := .forgetful }) good) :
    (opening failure run).Repeats registry known good := by
  intro session sound same
  subst same
  obtain ⟨agree, trusted, found⟩ := repeats sound.distinct session.context.memory sound.memory
  rw [← sound.context_eq] at agree trusted found
  rw [← sound.forgetting_context] at agree
  refine ⟨(run session.context).outcome.mapError failure, (run session.context).opened, [], trusted, ?_, ?_, ?_⟩
  · rw [run_opening, keeping_eq_meeting]
  · rw [run_opening, ← agree, keeping_eq_meeting]
  · intro value success
    exact found value (mapError_eq_ok.mp success)

/-- What is read of an inert record is the same whatever was opened before. -/
theorem reading {pointer : Pointer} {read : Context → Value → α}
    (repeats : ∀ (memory : Memory) (record : Value), record.Inert →
      read { registry, memory } record = read { registry, memory := .forgetful } record)
    (found : ∀ record : Value, record.Inert → good (read { registry, memory := .forgetful } record)) :
    (reading pointer read).Repeats registry known good := by
  intro session sound same
  subst same
  have nothing (memory : Memory) :
      pointer.opened { registry := session.context.registry, memory } session.record = [] :=
    Route.opened_of_inert sound.record
  have here := nothing session.context.memory
  have there := nothing .forgetful
  have agree := repeats session.context.memory session.record sound.record
  have holds := found session.record sound.record
  rw [← sound.context_eq] at here agree
  rw [← sound.forgetting_context] at there agree holds
  refine ⟨.ok (read session.context session.record), [], [], nofun, ?_, ?_, ?_⟩
  · rw [run_reading, here, keeping_eq_meeting]
  · rw [run_reading, show session.forgetting.record = session.record from rfl, there, keeping_eq_meeting, agree]
  · rintro value success
    cases success
    rw [agree]
    exact holds

theorem attempt (repeats : action.Repeats registry known good) :
    (attempt action).Repeats registry known fun result => ∀ value, result = .ok value → good value := by
  intro session sound same
  obtain ⟨result, opened, events, trusted, here, there, found⟩ := repeats session sound same
  refine ⟨.ok result, opened, events, trusted, ?_, ?_, ?_⟩
  · rw [run_attempt, here]
  · rw [run_attempt, there]
  · rintro attempted same value success
    cases same
    exact found value success

theorem mapOption {value? : Option β} {next : β → Action α}
    (repeats : ∀ value, value? = some value → (next value).Repeats registry known good) :
    (value?.mapM next).Repeats registry known fun _ => True := by
  cases value? with
  | none => exact pure trivial
  | some value =>
    apply (repeats value rfl).bind
    intro _ _
    exact pure trivial

end Action.Repeats
end RecordAddress.Session
