import RecordAddress.Record.Access

/-! Outcomes of computations that may fail, taken apart step by step. -/

namespace RecordAddress
variable {ε δ α β : Type}

theorem bind_eq_ok {outcome : Except ε α} {next : α → Except ε β} {result : β} :
    (outcome >>= next) = .ok result ↔ ∃ value, outcome = .ok value ∧ next value = .ok result := by
  cases outcome <;> simp [bind, Except.bind]

@[simp] theorem mapError_ok (f : ε → δ) (value : α) : (Except.ok value).mapError f = .ok value := rfl

@[simp] theorem mapError_error (f : ε → δ) (fault : ε) :
    (Except.error fault : Except ε α).mapError f = .error (f fault) := rfl

theorem mapError_eq_ok {f : ε → δ} {outcome : Except ε α} {result : α} :
    outcome.mapError f = .ok result ↔ outcome = .ok result := by
  cases outcome <;> simp

theorem mapError_eq_error {f : ε → δ} {outcome : Except ε α} {fault : δ} :
    outcome.mapError f = .error fault ↔ ∃ cause, outcome = .error cause ∧ f cause = fault := by
  cases outcome <;> simp

theorem map_eq_ok {f : α → β} {outcome : Except ε α} {result : β} :
    outcome.map f = .ok result ↔ ∃ value, outcome = .ok value ∧ f value = result := by
  cases outcome <;> simp [Except.map]

theorem toOption_eq_some {outcome : Except ε α} {result : α} : outcome.toOption = some result ↔ outcome = .ok result := by
  cases outcome <;> simp [Except.toOption]

theorem mem_of_mapM {f : α → Except ε β} {items : List α} {results : List β} (maps : items.mapM f = .ok results)
    {result : β} (within : result ∈ results) : ∃ item ∈ items, f item = .ok result := by
  induction items generalizing results with
  | nil =>
    cases maps
    cases within
  | cons item rest ih =>
    simp only [List.mapM_cons, bind_eq_ok] at maps
    obtain ⟨first, here, others, further, same⟩ := maps
    cases same
    rcases List.mem_cons.mp within with rfl | within
    · exact ⟨item, List.mem_cons_self, here⟩
    · obtain ⟨other, listed, there⟩ := ih further within
      exact ⟨other, List.mem_cons_of_mem _ listed, there⟩

/-- Actions that change a state go on from the state that the first one leaves, unless that fails. -/
theorem run_bind_eq {σ : Type} (action : ExceptT ε (StateM σ) α) (next : α → ExceptT ε (StateM σ) β) (state : σ) :
    (action >>= next).run state =
      match action.run state with
      | (.ok value, after) => (next value).run after
      | (.error fault, after) => (.error fault, after) := by
  change StateT.bind action.run (ExceptT.bindCont next) state = _
  unfold StateT.bind
  rcases action.run state with ⟨_ | _, after⟩ <;> rfl

namespace Access

@[simp] theorem attempt_eq_ok {operation : Except Value.Breakdown α} {result : α} :
    attempt operation = .ok result ↔ operation = .ok result := mapError_eq_ok

@[simp] theorem expect_eq_ok {holds : Bool} {shape : Shape} {result : Unit} :
    expect holds shape = .ok result ↔ holds = true := by
  cases holds <;> simp [expect]

end Access
end RecordAddress
