import RecordAddress.Proofs.Outcomes

/-! Single steps into a record. What a step reads depends on how far the way goes on only where nothing
is found: then it may be refused, or an empty collection may stand in. -/

namespace RecordAddress.Access
open Value

variable {context : Context}

theorem null_of_isUnset {value : Value} (unset : value.isUnset = true) : value = .null := by
  cases value <;> first | rfl | cases unset

theorem needElement_eq_ok {depth : Nat} {found value : Value} :
    needElement depth found = .ok value ↔
      found = value ∧ (depth ≠ 0 → value.isUnset = false ∧ value.isMissing = false) := by
  unfold needElement
  split
  next empty =>
    simp only [reduceCtorEq, false_iff]
    rintro ⟨rfl, settled⟩
    simp_all
  next settled =>
    simp only [Except.ok.injEq]
    refine ⟨?_, fun same => same.1⟩
    rintro rfl
    simp_all

theorem needProperty_succ {collection : Option Collection} {depth : Nat} {found value : Value}
    (read : needProperty collection (depth + 1) found = .ok value) :
    (found = value ∧ value.isUnset = false) ∨
    (found = .null ∧ depth = 0 ∧ ∃ kind, collection = some kind ∧ value = emptyOf kind) := by
  unfold needProperty at read
  split at read
  next unset =>
    have absent : found = .null := by
      rw [Bool.and_eq_true] at unset
      exact null_of_isUnset unset.2
    split at read
    · split at read
      · cases read
        exact .inr ⟨absent, by omega, _, rfl, rfl⟩
      · cases read
    · cases read
  next settled =>
    cases read
    exact .inl ⟨rfl, by simp_all⟩

theorem read_position (index depth : Nat) (holder : Value) :
    (position index).read context depth holder =
      match holder.items? with
      | some items => needElement depth (items[index]?.getD .missing)
      | none => .error (.mismatch (.expected .array)) := by
  cases holder <;> try rfl
  all_goals
    next items =>
    simp only [Access.read, isArray, items?, Option.isSome_some, expect, Value.length, item, attempt, mapError_ok]
    by_cases inside : index < items.length
    · simp [inside, bind, Except.bind]
    · simp [inside, bind, Except.bind]

theorem read_entry (key : String) (depth : Nat) (holder : Value) :
    (entry key).read context depth holder =
      match holder.entries? with
      | some entries => needElement depth ((Entries.find? key entries).getD .missing)
      | none => .error (.mismatch (.expected .map)) := by
  cases holder <;> rfl

theorem read_noEntry (depth : Nat) (holder : Value) :
    noEntry.read context depth holder =
      match holder.entries? with
      | some _ => needElement depth .missing
      | none => .error (.mismatch (.expected .map)) := by
  cases holder <;> rfl

/-- With more of the way left, a step reads the same value or an empty collection for one that is not
set. The latter only happens right above the last step. -/
theorem read_below {access : Access} {depth : Nat} {holder value : Value}
    (read : access.read context (depth + 1) holder = .ok value) :
    (access.isUnsetIn context holder = false ∧ access.read context 0 holder = .ok value ∧ value.isUnset = false) ∨
    (access.isUnsetIn context holder = true ∧ depth = 0 ∧ ∃ name mappedKey kind,
      access = .property name mappedKey (some kind) ∧
      readProperty context name mappedKey holder = .ok .null ∧ value = emptyOf kind) := by
  cases access with
  | property name mappedKey collection =>
    simp only [Access.read, bind_eq_ok] at read ⊢
    obtain ⟨found, reached, settled⟩ := read
    rcases needProperty_succ settled with ⟨rfl, present⟩ | ⟨rfl, last, kind, rfl, rfl⟩
    · exact .inl ⟨by simp [isUnsetIn, reached, present], ⟨found, reached, rfl⟩, present⟩
    · exact .inr ⟨by simp [isUnsetIn, reached, isUnset], last, name, mappedKey, kind, rfl, reached, rfl⟩
  | position index =>
    simp only [read_position] at read ⊢
    split at read
    · obtain ⟨rfl, settled⟩ := needElement_eq_ok.mp read
      exact .inl ⟨rfl, needElement_eq_ok.mpr ⟨rfl, by simp⟩, (settled (by simp)).1⟩
    · cases read
  | afterLast =>
    cases read
    exact .inl ⟨rfl, rfl, rfl⟩
  | entry key =>
    simp only [read_entry] at read ⊢
    split at read
    · obtain ⟨rfl, settled⟩ := needElement_eq_ok.mp read
      exact .inl ⟨rfl, needElement_eq_ok.mpr ⟨rfl, by simp⟩, (settled (by simp)).1⟩
    · cases read
  | noEntry =>
    simp only [read_noEntry] at read
    split at read
    · obtain ⟨rfl, settled⟩ := needElement_eq_ok.mp read
      simp [isMissing] at settled
    · cases read

end RecordAddress.Access
