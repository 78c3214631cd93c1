import RecordAddress.Value.Parts

/-! What a record consists of. A check that all values inside a record pass is kept along every step
into it, because what is read is a part of what it is read from. -/

namespace RecordAddress.Value

mutual
/-- Whether the value and all values inside it pass the check. -/
def throughout (check : Value → Bool) (value : Value) : Bool :=
  check value && match value with
    | list items | tuple items | set items => allThroughout check items
    | dict entries | view entries | object entries => entriesThroughout check entries
    | location tokens attributes => tokens.throughout check && entriesThroughout check attributes
    | _ => true

def allThroughout (check : Value → Bool) : List Value → Bool
  | [] => true
  | item :: rest => item.throughout check && allThroughout check rest

def entriesThroughout (check : Value → Bool) : List (String × Value) → Bool
  | [] => true
  | (_, value) :: rest => value.throughout check && entriesThroughout check rest
end

variable {check : Value → Bool}

theorem allThroughout_iff (items : List Value) :
    allThroughout check items = true ↔ ∀ item ∈ items, item.throughout check = true := by
  induction items with
  | nil => simp [allThroughout]
  | cons item rest ih => simp [allThroughout, ih]

theorem entriesThroughout_iff (entries : List (String × Value)) :
    entriesThroughout check entries = true ↔ ∀ entry ∈ entries, entry.2.throughout check = true := by
  induction entries with
  | nil => simp [entriesThroughout]
  | cons entry rest ih => simp [entriesThroughout, ih]

theorem check_of_throughout {value : Value} (holds : value.throughout check = true) : check value = true := by
  rw [throughout.eq_def, Bool.and_eq_true] at holds
  exact holds.1

theorem throughout_of_find? {entries : Entries Value} (holds : entriesThroughout check entries = true)
    {key : String} {value : Value} (found : Entries.find? key entries = some value) :
    value.throughout check = true :=
  (entriesThroughout_iff entries).mp holds _ (Entries.mem_of_find? found)

theorem throughout_item {holder : Value} {items : List Value} (shape : holder.items? = some items)
    (holds : holder.throughout check = true) : allThroughout check items = true := by
  cases holder <;> simp only [items?, Option.some.injEq, reduceCtorEq] at shape
  all_goals
    subst shape
    rw [throughout, Bool.and_eq_true] at holds
    exact holds.2

theorem throughout_entry {holder : Value} {entries : Entries Value} (shape : holder.entries? = some entries)
    (holds : holder.throughout check = true) : entriesThroughout check entries = true := by
  cases holder <;> simp only [entries?, Option.some.injEq, reduceCtorEq] at shape
  all_goals
    subst shape
    rw [throughout, Bool.and_eq_true] at holds
    exact holds.2

variable {other : Value → Bool}

mutual
/-- What passes a check throughout passes every weaker one. -/
theorem throughout_mono (weaker : ∀ value, check value = true → other value = true) (value : Value)
    (holds : value.throughout check = true) : value.throughout other = true := by
  cases value with
  | list items | tuple items | set items =>
    rw [throughout, Bool.and_eq_true] at holds ⊢
    exact ⟨weaker _ holds.1, allThroughout_mono weaker items holds.2⟩
  | dict entries | view entries | object entries =>
    rw [throughout, Bool.and_eq_true] at holds ⊢
    exact ⟨weaker _ holds.1, entriesThroughout_mono weaker entries holds.2⟩
  | location tokens attributes =>
    simp only [throughout, Bool.and_eq_true] at holds ⊢
    exact ⟨weaker _ holds.1, throughout_mono weaker tokens holds.2.1, entriesThroughout_mono weaker attributes holds.2.2⟩
  | _ =>
    rw [throughout.eq_def, Bool.and_eq_true] at holds ⊢
    exact ⟨weaker _ holds.1, rfl⟩

theorem allThroughout_mono (weaker : ∀ value, check value = true → other value = true) (items : List Value)
    (holds : allThroughout check items = true) : allThroughout other items = true := by
  cases items with
  | nil => rfl
  | cons item rest =>
    rw [allThroughout, Bool.and_eq_true] at holds ⊢
    exact ⟨throughout_mono weaker item holds.1, allThroughout_mono weaker rest holds.2⟩

theorem entriesThroughout_mono (weaker : ∀ value, check value = true → other value = true) (entries : List (String × Value))
    (holds : entriesThroughout check entries = true) : entriesThroughout other entries = true := by
  cases entries with
  | nil => rfl
  | cons entry rest =>
    obtain ⟨name, value⟩ := entry
    rw [entriesThroughout, Bool.and_eq_true] at holds ⊢
    exact ⟨throughout_mono weaker value holds.1, entriesThroughout_mono weaker rest holds.2⟩
end

end RecordAddress.Value
