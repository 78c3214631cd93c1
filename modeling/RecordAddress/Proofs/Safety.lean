import RecordAddress.Proofs.DirectReading

/-! Records of mere data break nothing. Every shape is looked at before anything is read from it or written to
it, so what keeps a value from being read or edited is a fault of the data, whatever the record holds. -/

namespace RecordAddress
open Value

namespace Access
variable {context : Context} {access : Access} {holder : Value}

/-- The steps that pointers take where nothing was changed of what is declared. -/
inductive Declared : Access → Prop
  | property (target : Property) : Declared (Pointer.accessOf {} target)
  | element (index : ElementIndex) : Declared index.access

/-- An outcome that either has the property or is a fault of the data. -/
def Proper {α : Type} (good : α → Prop) : Except Obstacle α → Prop
  | .ok value => good value
  | .error obstacle => ∃ mismatch, obstacle = .mismatch mismatch

theorem Proper.mono {α : Type} {good fine : α → Prop} {outcome : Except Obstacle α} (proper : Proper good outcome)
    (weaker : ∀ value, good value → fine value) : Proper fine outcome := by
  cases outcome with
  | ok value => exact weaker value proper
  | error obstacle => exact proper

theorem emptyOf_is_data (kind : Collection) : (emptyOf kind).throughout isData = true := by
  cases kind <;> rfl

private theorem needProperty_proper {collection : Option Collection} {value : Value}
    (data : value.throughout isData = true) (depth : Nat) :
    Proper (·.throughout isData = true) (needProperty collection depth value) := by
  unfold needProperty
  split
  · split
    · split
      · exact emptyOf_is_data _
      · exact ⟨_, rfl⟩
    · exact ⟨_, rfl⟩
  · exact data

private theorem needElement_proper {found : Option Value} (data : ∀ value ∈ found, value.throughout isData = true)
    (depth : Nat) : Proper (fun value => 0 < depth → value.throughout isData = true)
      (needElement depth (found.getD .missing)) := by
  unfold needElement
  split
  · exact ⟨_, rfl⟩
  next inside =>
    intro deep
    cases found with
    | none => simp [Nat.ne_of_gt deep, isMissing] at inside
    | some value => exact data value rfl

/-- A step reads data from data, except at the end of the way, where an element may be missing. -/
theorem Declared.read_proper (declared : access.Declared) (data : holder.throughout isData = true) {depth : Nat}
    (inside : 0 < depth → access ≠ .afterLast) :
    Proper (fun value => 0 < depth → value.throughout isData = true) (access.read context depth holder) := by
  cases declared with
  | property target =>
    cases has : holder.stored? target.field with
    | none =>
      rw [read_nothing_stored (check_of_throughout data) has]
      exact ⟨_, rfl⟩
    | some stored =>
      rw [read_stored has]
      have storedData : (stored.getD .null).throughout isData = true := by
        cases stored with
        | none => rfl
        | some value => exact data_of_stored? data has
      exact (needProperty_proper storedData depth).mono fun _ holds _ => holds
  | element index =>
    by_cases dash : index = .afterLast
    · subst dash
      exact fun deep => absurd rfl (inside deep)
    · cases has : holder.element? index with
      | none =>
        obtain ⟨shape, refused⟩ := read_no_element has dash depth
        rw [refused]
        exact ⟨_, rfl⟩
      | some stored =>
        rw [read_element has]
        exact needElement_proper (fun value found => data_of_element? data (found ▸ has)) depth

private theorem writePosition_proper (items : List Value) (index : Nat) (change : Edit) :
    Proper (fun _ => True) (writePosition index change (.list items)) := by
  unfold writePosition
  simp only [expect, isChangeableArray, Value.length, attempt, mapError_ok, ite_true, bind, Except.bind]
  by_cases beyond : items.length ≤ index
  · rw [if_pos beyond]
    exact ⟨_, rfl⟩
  · have inside : index < items.length := Nat.lt_of_not_le beyond
    rw [if_neg beyond]
    cases change <;> simp [insertItem, setItem, removeItem, inside, Proper]

/-- What data do not take is refused before it is written. -/
theorem Declared.write_proper (declared : access.Declared) (data : holder.isData = true) (change : Edit) :
    Proper (fun _ => True) (access.write change holder) := by
  cases declared with
  | property target =>
    have written : (Pointer.accessOf {} target).write change holder =
      writeProperty (.text target.name) (.text target.field.mappedKey) change.value? holder := rfl
    rw [written]
    cases holder with
    | dict | object => cases change <;> trivial
    | missing | location | pointer | description => cases data
    | _ => exact ⟨_, rfl⟩
  | element index =>
    cases index with
    | position index =>
      cases holder with
      | list items => exact writePosition_proper items index change
      | _ => exact ⟨_, rfl⟩
    | afterLast =>
      cases holder with
      | list => cases change <;> first | trivial | exact ⟨_, rfl⟩
      | _ => exact ⟨_, rfl⟩
    | key =>
      cases holder with
      | dict => cases change <;> trivial
      | _ => exact ⟨_, rfl⟩

end Access

namespace Route
variable {context : Context} {change : Edit} {access : Access} {rest : List Access} {holder : Value} {failure : Failure}

/-- What is wrong lies in the data. -/
def Failure.InData (failure : Failure) : Prop :=
  ∃ mismatch, failure.obstacle = .mismatch mismatch

/-- A way of declared steps, with positions after the last element at its end only. -/
structure Declared (route : List Access) : Prop where
  declared : ∀ access ∈ route, access.Declared
  dash_last : ∀ access ∈ route.dropLast, access ≠ .afterLast

theorem Declared.tail {next : Access} (declared : Declared (access :: next :: rest)) : Declared (next :: rest) where
  declared other within := declared.declared other (List.mem_cons_of_mem _ within)
  dash_last other within := declared.dash_last other (List.mem_cons_of_mem _ within)

private theorem Declared.first_proper (context : Context) (declared : Declared (access :: rest)) (data : holder.throughout isData = true) :
    Access.Proper (fun value => 0 < rest.length → value.throughout isData = true)
      (access.read context rest.length holder) := by
  refine (declared.declared access List.mem_cons_self).read_proper data ?_
  intro deep
  cases rest with
  | nil => cases deep
  | cons => exact declared.dash_last access List.mem_cons_self

theorem read_fails_in_data {route : List Access} (declared : Declared route) (data : holder.throughout isData = true)
    (failed : read context route holder = .error failure) : failure.InData := by
  induction route generalizing holder with
  | nil => cases failed
  | cons access rest ih =>
    have first := declared.first_proper context data
    cases reached : access.read context rest.length holder with
    | error obstacle =>
      rw [reached] at first
      rw [read, reached] at failed
      cases failed
      exact first
    | ok value =>
      rw [reached] at first
      rw [read_step reached] at failed
      cases rest with
      | nil => cases failed
      | cons next rest => exact ih declared.tail (first (Nat.succ_pos _)) failed

theorem edit_fails_in_data (declared : Declared (access :: rest)) (data : holder.throughout isData = true)
    (failed : (edit context change access rest holder).2 = .error failure) : failure.InData := by
  induction rest generalizing access holder with
  | nil =>
    have first := declared.first_proper context data
    have last := (declared.declared access List.mem_cons_self).write_proper (check_of_throughout data) change
    simp only [edit, editSlot] at failed
    cases reached : access.read context 0 holder with
    | error obstacle =>
      rw [List.length_nil, reached] at first
      rw [reached] at failed
      cases failed
      exact first
    | ok prior =>
      cases written : access.write change holder with
      | error obstacle =>
        rw [written] at last
        rw [reached, written] at failed
        cases failed
        exact last
      | ok edited =>
        rw [reached, written] at failed
        cases failed
  | cons next rest ih =>
    have first := declared.first_proper context data
    simp only [edit] at failed
    cases reached : access.read context (rest.length + 1) holder with
    | error obstacle =>
      rw [List.length_cons, reached] at first
      rw [reached] at failed
      cases failed
      exact first
    | ok value =>
      rw [List.length_cons, reached] at first
      have below := ih declared.tail (first (Nat.succ_pos _))
      simp only [reached] at failed
      split at failed
      · -- what was edited is in a collection made up for one that is not set, and is to be stored
        split at failed
        · split at failed
          · cases failed
          next obstacle written =>
            have stored := (declared.declared access List.mem_cons_self).write_proper (check_of_throughout data)
              (.replace (edit context change next rest value).1)
            rw [written] at stored
            cases failed
            exact stored
        next => exact below failed
      · exact below failed

end Route

namespace Pointer
variable {container : Container} {pointer : Pointer} {record : Value}

theorem declared_of_route (pointer : Pointer) : ∀ access ∈ pointer.route {}, access.Declared := by
  induction pointer with
  | root => exact nofun
  | property parent token target children ih =>
    exact List.forall_mem_append.mpr ⟨ih, List.forall_mem_singleton.mpr (.property target)⟩
  | element parent token index ih =>
    rw [route_of_element]
    exact List.forall_mem_append.mpr ⟨ih, List.forall_mem_singleton.mpr (.element index)⟩

theorem Reached.declared (reached : Reached container pointer) : Route.Declared (pointer.route {}) where
  declared := declared_of_route pointer
  dash_last := by
    rintro _ within rfl
    have slot : some Slot.dash ∈ (pointer.route {}).dropLast.map Access.slot? := List.mem_map.mpr ⟨_, within, rfl⟩
    rw [List.map_dropLast, slots_of_route, ← List.map_dropLast] at slot
    obtain ⟨_, dash, same⟩ := List.mem_map.mp slot
    cases same
    exact reached.dash_at_end dash

/-- Nothing breaks on a record of mere data. Reading through a pointer gives a value or is refused as a fault of
the data, and an edit gives one, is misuse, or is refused as a fault of the data. -/
theorem data_break_nothing (registry : Registry) (memory : Memory) (reached : Reached container pointer)
    (data : record.throughout isData = true) :
    (∀ fault, pointer.get { registry, memory } record = .error fault → ∃ inData, fault = .data inData) ∧
    (∀ change fault, (pointer.edit { registry, memory } change record).2 = .error fault →
      (∃ misuse, fault = .misuse misuse) ∨ ∃ inData, fault = .data inData) := by
  have told : ∀ failure : Route.Failure, failure.InData → ∃ inData, pointer.faultAt failure = .data inData := by
    rintro ⟨depth, obstacle⟩ ⟨mismatch, rfl⟩
    exact ⟨_, rfl⟩
  constructor
  · intro fault refused
    obtain ⟨failure, failed, rfl⟩ := mapError_eq_error.mp refused
    exact told failure (Route.read_fails_in_data reached.declared data failed)
  · intro change fault refused
    unfold edit at refused
    split at refused
    next misuse _ =>
      cases refused
      exact .inl ⟨misuse, rfl⟩
    next => cases refused
    next access rest _ way =>
      obtain ⟨failure, failed, rfl⟩ := mapError_eq_error.mp refused
      have declared := reached.declared
      rw [way] at declared
      exact .inr (told failure (Route.edit_fails_in_data declared data failed))

theorem octets_break_nothing :
    let context : Context := { registry := Orders.registry }
    let record : Value := .dict [("events", .bytes [7])]
    ∃ pointer, (parse context Orders.container true (.text "/events/0/OPENED:byWho")).outcome = .ok pointer ∧
      record.throughout isData = true ∧ ∃ inData, pointer.get context record = .error (.data inData) := by
  intro context record
  obtain ⟨pointer, parsed, fault, refused⟩ : ∃ pointer,
      (parse context Orders.container true (.text "/events/0/OPENED:byWho")).outcome = .ok pointer ∧
      ∃ fault, pointer.get context record = .error fault := ⟨_, rfl, _, rfl⟩
  have data : record.throughout isData = true := rfl
  obtain ⟨inData, rfl⟩ := (data_break_nothing Orders.registry {} (reached_of_parse parsed) data).1 fault refused
  exact ⟨pointer, parsed, data, inData, refused⟩

end Pointer
end RecordAddress
