import RecordAddress.Proofs.Outcomes
import RecordAddress.Session.Run

/-! What the parts of an action leave of a session, and what they answer. -/

namespace RecordAddress.Session
variable {α β ε : Type} (session : Session)

theorem run_bind (action : Action α) (next : α → Action β) :
    (action >>= next).run session =
      match action.run session with
      | (.ok value, after) => (next value).run after
      | (.error failure, after) => (.error failure, after) := by
  rw [run_bind_eq]
  rcases action.run session with ⟨_ | _, after⟩ <;> rfl

@[simp] theorem run_pure (value : α) : (pure value : Action α).run session = (.ok value, session) := rfl

@[simp] theorem run_throw (failure : Failure) :
    (throw failure : Action α).run session = (.error failure, session) := rfl

@[simp] theorem run_get : (get : Action Session).run session = (.ok session, session) := rfl

@[simp] theorem run_modify (change : Session → Session) :
    (modify change : Action PUnit).run session = (.ok ⟨⟩, change session) := rfl

@[simp] theorem run_amended : amended.run session = (.ok session.context.amendments, session) := rfl

@[simp] theorem run_raise_ok (failure : ε → Failure) (value : α) :
    (raise failure (.ok value)).run session = (.ok value, session) := rfl

@[simp] theorem run_raise_error (failure : ε → Failure) (fault : ε) :
    (raise failure (.error fault) : Action α).run session = (.error (failure fault), session) := rfl

@[simp] theorem run_report (event : Event) :
    (report event).run session = (.ok ⟨⟩, { session with events := session.events ++ [event] }) := rfl

/-- The session with more containers kept open. -/
def keeping (opened : List Container) : Session :=
  { session with context := { session.context with memory := session.context.memory.rememberAll opened } }

theorem keeping_keeping (first second : List Container) :
    (session.keeping first).keeping second = session.keeping (first ++ second) := by
  simp only [keeping, Memory.rememberAll_append]

theorem run_opening (failure : ε → Failure) (run : Context → Opening ε α) :
    (opening failure run).run session =
      ((run session.context).outcome.mapError failure, session.keeping (run session.context).opened) := by
  simp only [opening, remember, run_bind, run_get, run_modify]
  cases outcome : (run session.context).outcome <;> rfl

@[simp] theorem run_reading (pointer : Pointer) (read : Context → Value → α) :
    (reading pointer read).run session =
      (.ok (read session.context session.record),
        session.keeping (pointer.opened session.context session.record)) := rfl

theorem run_attempt (action : Action α) :
    (attempt action).run session = (.ok (action.run session).1, (action.run session).2) := by
  unfold attempt
  simp only [tryCatch, tryCatchThe, MonadExceptOf.tryCatch, ExceptT.tryCatch, ExceptT.mk, ExceptT.run, bind,
    ExceptT.bind, StateT.bind, pure, ExceptT.pure]
  rcases action session with ⟨_ | _, after⟩ <;> rfl

/-- The session without the events of earlier steps. -/
def quiet : Session :=
  { session with events := [] }

theorem act_eq (action : Action α) :
    act action session = let (result, after) := action.run session.quiet; ((result, after.events), after) := rfl

/-! Edits. -/

variable {session} {pointer : Pointer} {change : Edit}

theorem runEdit_misuse {misuse : Pointer.Misuse}
    (improper : pointer.misuse? session.context.amendments change = some misuse) :
    (runEdit pointer change).run session = (.error (.misuse pointer misuse), session) := by
  simp only [runEdit, run_bind, run_amended, improper, run_throw]

/-- An edit that fails leaves the record as its parts are by then, and what it opened. -/
theorem runEdit_error {fault : Pointer.AccessFault}
    (proper : pointer.misuse? session.context.amendments change = none)
    (failed : (pointer.edit session.context change session.record).2 = .error fault) :
    ∃ opened, (runEdit pointer change).run session = (.error (.ofAccess pointer fault),
      { session.keeping opened with record := (pointer.edit session.context change session.record).1 }) := by
  simp only [runEdit, run_bind, run_amended, proper, run_reading, run_modify, failed, run_raise_error, keeping_keeping]
  exact ⟨_, rfl⟩

theorem runEdit_ok {prior : Value}
    (proper : pointer.misuse? session.context.amendments change = none)
    (done : (pointer.edit session.context change session.record).2 = .ok prior) :
    ((runEdit pointer change).run session).1 = .ok (.edited prior) := by
  simp only [runEdit, run_bind, run_amended, proper, run_reading, run_modify, done, run_raise_ok, run_report, run_pure]

end RecordAddress.Session
