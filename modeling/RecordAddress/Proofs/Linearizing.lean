import RecordAddress.Schema.Linearization

/-! What merging orders of classes comes to. The merged order has every class of the given ones once, and of two
classes that stand in one of them the first stays before the second. -/

namespace RecordAddress.Linearization
variable {α : Type} {identity : α → Nat} {orders : List (List α)} {merged : List α}

/-- Classes of the given orders are told apart by their numbers. -/
def ToldApart (identity : α → Nat) (orders : List (List α)) : Prop :=
  ∀ first second, first ∈ orders.flatten → second ∈ orders.flatten → identity first = identity second → first = second

private theorem mem_of_dropFront {taken item : α} {order : List α} (within : item ∈ dropFront identity taken order) :
    item ∈ order := by
  cases order with
  | nil => cases within
  | cons first rest =>
    simp only [dropFront] at within
    split at within
    · exact List.mem_cons_of_mem _ within
    · exact within

private theorem mem_of_takeOut {taken item : α} (within : item ∈ (takeOut identity taken orders).flatten) :
    item ∈ orders.flatten := by
  obtain ⟨shorter, left, inside⟩ := List.mem_flatten.mp within
  obtain ⟨order, listed, rfl⟩ := List.mem_map.mp left
  exact List.mem_flatten.mpr ⟨order, listed, mem_of_dropFront inside⟩

theorem ToldApart.takeOut (apart : ToldApart identity orders) (taken : α) :
    ToldApart identity (takeOut identity taken orders) :=
  fun first second within other => apart first second (mem_of_takeOut within) (mem_of_takeOut other)

/-- What is picked next stands in front of an order, and in none of them behind another class. -/
theorem next?_eq_some {taken : α} (picked : next? identity orders = some taken) :
    taken ∈ orders.flatten ∧ ∀ order ∈ orders, ∀ later ∈ order.tail, identity later ≠ identity taken := by
  obtain ⟨order, listed, chosen⟩ := List.exists_of_findSome?_eq_some picked
  cases order with
  | nil => cases chosen
  | cons candidate rest =>
    simp only at chosen
    split at chosen
    · cases chosen
    next free =>
      cases chosen
      refine ⟨List.mem_flatten.mpr ⟨_, listed, List.mem_cons_self⟩, ?_⟩
      intro other within later behind same
      refine free (List.any_eq_true.mpr ⟨other, within, List.any_eq_true.mpr ⟨later, behind, ?_⟩⟩)
      simpa using same

/-- What a merged order starts with, and what it goes on with. -/
theorem merge?_eq_some (merges : merge? identity orders = some merged) :
    (merged = [] ∧ ∀ order ∈ orders, order = []) ∨
    ∃ taken rest, next? identity orders = some taken ∧ merge? identity (takeOut identity taken orders) = some rest ∧
      merged = taken :: rest := by
  rw [merge?] at merges
  split at merges
  next empty =>
    cases merges
    exact .inl ⟨rfl, fun order within => List.isEmpty_iff.mp (List.all_eq_true.mp empty order within)⟩
  next =>
    split at merges
    · cases merges
    next taken picked =>
      obtain ⟨rest, further, rfl⟩ := Option.map_eq_some_iff.mp merges
      exact .inr ⟨taken, rest, picked, further, rfl⟩

theorem mem_of_merge (merges : merge? identity orders = some merged) {item : α} (within : item ∈ merged) :
    item ∈ orders.flatten := by
  induction merged generalizing orders with
  | nil => cases within
  | cons first later ih =>
    obtain ⟨impossible, -⟩ | ⟨taken, rest, picked, further, same⟩ := merge?_eq_some merges
    · cases impossible
    cases same
    rcases List.mem_cons.mp within with rfl | within
    · exact (next?_eq_some picked).1
    · exact mem_of_takeOut (ih further within)

/-- No class is merged twice. -/
theorem nodup_of_merge (merges : merge? identity orders = some merged) : (merged.map identity).Nodup := by
  induction merged generalizing orders with
  | nil => exact List.nodup_nil
  | cons first later ih =>
    obtain ⟨impossible, -⟩ | ⟨taken, rest, picked, further, same⟩ := merge?_eq_some merges
    · cases impossible
    cases same
    refine List.nodup_cons.mpr ⟨?_, ih further⟩
    -- once it is taken out, the class is in none of the orders any more
    intro again
    obtain ⟨item, within, ids⟩ := List.mem_map.mp again
    obtain ⟨shorter, left, inside⟩ := List.mem_flatten.mp (mem_of_merge further within)
    obtain ⟨order, listed, rfl⟩ := List.mem_map.mp left
    have behind := (next?_eq_some picked).2 order listed
    cases order with
    | nil => cases inside
    | cons front tail =>
      simp only [dropFront] at inside
      split at inside
      · exact behind item inside ids
      next other =>
        rcases List.mem_cons.mp inside with rfl | inside
        · exact other ids
        · exact behind item inside ids

/-- Every order is kept within the merged one. -/
theorem sublist_of_merge (apart : ToldApart identity orders) (merges : merge? identity orders = some merged)
    {order : List α} (listed : order ∈ orders) : order.Sublist merged := by
  induction merged generalizing orders order with
  | nil =>
    obtain ⟨-, empty⟩ | ⟨taken, rest, -, -, impossible⟩ := merge?_eq_some merges
    · obtain rfl := empty order listed
      exact List.nil_sublist _
    · cases impossible
  | cons first later ih =>
    obtain ⟨impossible, -⟩ | ⟨taken, rest, picked, further, same⟩ := merge?_eq_some merges
    · cases impossible
    cases same
    have shorter := ih (apart.takeOut first) further (List.mem_map_of_mem listed)
    cases order with
    | nil => exact List.nil_sublist _
    | cons front tail =>
      simp only [dropFront] at shorter
      split at shorter
      next ids =>
        have within : front ∈ orders.flatten := List.mem_flatten.mpr ⟨_, listed, List.mem_cons_self⟩
        obtain rfl := apart front first within (next?_eq_some picked).1 ids
        exact shorter.cons_cons front
      next => exact shorter.cons first

end RecordAddress.Linearization
