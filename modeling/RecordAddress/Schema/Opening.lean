import RecordAddress.Schema.Container

/-! An `Opening` is a computation that tells which containers it opened, also when it fails, so that
they can be remembered. -/

namespace RecordAddress

structure Opening (ε α : Type) where
  opened : List Container
  outcome : Except ε α

namespace Opening
variable {ε δ α β : Type}

def ofExcept (outcome : Except ε α) : Opening ε α :=
  ⟨[], outcome⟩

def fail (fault : ε) : Opening ε α :=
  ⟨[], .error fault⟩

def mapError (f : ε → δ) (opening : Opening ε α) : Opening δ α :=
  ⟨opening.opened, opening.outcome.mapError f⟩

instance : Monad (Opening ε) where
  pure value := ⟨[], .ok value⟩
  bind opening next :=
    match opening.outcome with
    | .error fault => ⟨opening.opened, .error fault⟩
    | .ok value =>
      let rest := next value
      ⟨opening.opened ++ rest.opened, rest.outcome⟩

@[simp] theorem outcome_pure (value : α) : (pure value : Opening ε α).outcome = .ok value := rfl

@[simp] theorem outcome_fail (fault : ε) : (fail fault : Opening ε α).outcome = .error fault := rfl

@[simp] theorem outcome_ofExcept (outcome : Except ε α) : (ofExcept outcome).outcome = outcome := rfl

@[simp] theorem outcome_mapError (f : ε → δ) (opening : Opening ε α) :
    (opening.mapError f).outcome = opening.outcome.mapError f := rfl

@[simp] theorem opened_pure (value : α) : (pure value : Opening ε α).opened = [] := rfl

@[simp] theorem opened_fail (fault : ε) : (fail fault : Opening ε α).opened = [] := rfl

@[simp] theorem opened_ofExcept (outcome : Except ε α) : (ofExcept outcome).opened = [] := rfl

@[simp] theorem opened_mapError (f : ε → δ) (opening : Opening ε α) :
    (opening.mapError f).opened = opening.opened := rfl

theorem bind_of_ok {opening : Opening ε α} {value : α} (next : α → Opening ε β) (success : opening.outcome = .ok value) :
    (opening >>= next) = ⟨opening.opened ++ (next value).opened, (next value).outcome⟩ := by
  show (match opening.outcome with | .error fault => _ | .ok value => _ : Opening ε β) = _
  rw [success]

theorem bind_of_error {opening : Opening ε α} {fault : ε} (next : α → Opening ε β)
    (failed : opening.outcome = .error fault) : (opening >>= next) = ⟨opening.opened, .error fault⟩ := by
  show (match opening.outcome with | .error fault => _ | .ok value => _ : Opening ε β) = _
  rw [failed]

@[simp] theorem outcome_bind (opening : Opening ε α) (next : α → Opening ε β) :
    (opening >>= next).outcome = opening.outcome >>= fun value => (next value).outcome := by
  cases outcome : opening.outcome with
  | error fault =>
    rw [bind_of_error next outcome]
    rfl
  | ok value =>
    rw [bind_of_ok next outcome]
    rfl

/-- What the first part opened stays opened if a later part fails. -/
theorem opened_bind_of_ok {opening : Opening ε α} {value : α} (next : α → Opening ε β)
    (success : opening.outcome = .ok value) :
    (opening >>= next).opened = opening.opened ++ (next value).opened := by
  rw [bind_of_ok next success]

theorem opened_bind_of_error {opening : Opening ε α} {fault : ε} (next : α → Opening ε β)
    (failed : opening.outcome = .error fault) : (opening >>= next).opened = opening.opened := by
  rw [bind_of_error next failed]

end Opening

/-- An opening of a single container, if there is one to open. -/
def Opening.ofNested {ε : Type} (nested : Except ε (Option Container)) : Opening ε (Option Container) where
  opened := match nested with
    | .ok (some container) => [container]
    | _ => []
  outcome := nested

def Opening.ofRoot {ε : Type} (root : Except ε Container) : Opening ε Container where
  opened := root.toOption.toList
  outcome := root

end RecordAddress
