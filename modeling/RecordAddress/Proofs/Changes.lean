import RecordAddress.Proofs.Slots
import RecordAddress.Proofs.Writes

/-! What an edit makes of a record: the record it was, but for the slot that was edited. If the collection
of an element is not set, one with that element alone is stored for it. -/

namespace RecordAddress
open Value

namespace Slot

/-- What an edit makes of the holder of its slot. -/
inductive Edited (change : Edit) : Slot → Value → Value → Prop
  | written {name : String} {value : Value} {entries : Entries Value} : change.value? = some value →
      Edited change (.key name) (.dict entries) (.dict (Entries.put name value entries))
  | deleted {name : String} {entries : Entries Value} : change = .remove →
      Edited change (.key name) (.dict entries) (.dict (Entries.erase name entries))
  | inserted {index : Nat} {value : Value} {items : List Value} : change = .add value → index < items.length →
      Edited change (.index index) (.list items) (.list (items.take index ++ value :: items.drop index))
  | replaced {index : Nat} {value : Value} {items : List Value} : change = .replace value → index < items.length →
      Edited change (.index index) (.list items) (.list (items.set index value))
  | dropped {index : Nat} {items : List Value} : change = .remove → index < items.length →
      Edited change (.index index) (.list items) (.list (items.eraseIdx index))
  | appended {value : Value} {items : List Value} : change = .add value →
      Edited change .dash (.list items) (.list (items ++ [value]))

/-- A collection of exactly one element. -/
def single (value : Value) : Slot → Value
  | key name => .dict [(name, value)]
  | index _ | dash => .list [value]

/-- What an edit makes of the mapping in which the collection of its element is not set. There is nothing
to remove then. -/
inductive MadeUp (change : Edit) (name : String) (slot : Slot) : Value → Value → Prop
  | stored {value : Value} {entries : Entries Value} : change.value? = some value →
      (Entries.find? name entries).getD .null = .null → (∀ index, slot ≠ .index index) →
      MadeUp change name slot (.dict entries) (.dict (Entries.put name (slot.single value) entries))
  | left {holder : Value} {entries : Entries Value} : change = .remove → holder.entries? = some entries →
      (Entries.find? name entries).getD .null = .null → MadeUp change name slot holder holder

end Slot

/-- What an edit makes of a record: it changes the record where its slots lead to, and nowhere else. -/
inductive EditedAt (change : Edit) : List Slot → Value → Value → Prop
  | slot {slot : Slot} {holder after : Value} : slot.Edited change holder after → EditedAt change [slot] holder after
  | madeUp {name : String} {slot : Slot} {holder after : Value} :
      Slot.MadeUp change name slot holder after → EditedAt change [.key name, slot] holder after
  | inside {slot : Slot} {rest : List Slot} {holder before after : Value} : holder.child? slot = some before →
      EditedAt change rest before after → EditedAt change (slot :: rest) holder (holder.putChild slot after)

variable {context : Context} {change : Edit} {access : Access} {slot : Slot} {holder value after : Value}

namespace Access

/-- A write that succeeds changes its slot and nothing else of the holder. -/
theorem write_edited (leads : access.slot? = some slot) (plain : holder.isPlain = true)
    (written : access.write change holder = .ok after) : slot.Edited change holder after := by
  have own : holder.isOwn = true := by cases holder <;> first | rfl | cases plain
  cases (write_eq_ok own).mp written with
  | put given | entered given =>
    cases leads
    exact .written given
  | erased removed | dropped removed =>
    cases leads
    exact .deleted removed
  | nowhere | noEntry => cases leads
  | set | tokens | further => cases plain
  | item inside =>
    cases leads
    cases change with
    | add => exact .inserted rfl inside
    | replace => exact .replaced rfl inside
    | remove => exact .dropped rfl inside
  | appended added =>
    cases leads
    exact .appended added

theorem stored_element {found : Option Value} {depth : Nat}
    (settled : needElement (depth + 1) (found.getD .missing) = .ok value) : found = some value := by
  obtain ⟨same, present⟩ := needElement_eq_ok.mp settled
  cases found with
  | some stored => exact congrArg some same
  | none =>
    cases same
    cases (present (by simp)).2

private theorem stored_property {found : Option Value} (same : found.getD .null = value)
    (present : value.isUnset = false) : found = some value := by
  cases found with
  | some stored => exact congrArg some same
  | none =>
    cases same
    cases present

theorem child_of_read {depth : Nat} (leads : access.slot? = some slot) (inside : slot ≠ .dash)
    (plain : holder.isPlain = true) (isSet : access.isUnsetIn context holder = false)
    (read : access.read context (depth + 1) holder = .ok value) : holder.child? slot = some value := by
  rcases read_below read with ⟨-, shallow, present⟩ | ⟨isUnset, -⟩
  · rw [read_slot leads plain] at read shallow
    split at read
    next fits =>
      rw [if_pos fits] at shallow
      cases access with
      | property name mappedKey collection => exact stored_property (Except.ok.inj shallow) present
      | position index => exact stored_element read
      | afterLast =>
        cases leads
        exact absurd rfl inside
      | entry key => exact stored_element read
      | noEntry => cases leads
    next => cases read
  · rw [isSet] at isUnset
    cases isUnset

theorem write_to_empty {kind : Collection} (leads : access.slot? = some slot) (given : change.value? = some value)
    (written : access.write change (emptyOf kind) = .ok after) :
    after = slot.single value ∧ ∀ index, slot ≠ .index index := by
  have plain : (emptyOf kind).isPlain = true := by cases kind <;> rfl
  have edited := write_edited leads plain written
  have noItems : ∀ items, emptyOf kind = .list items → items = [] := by
    intro items same
    cases kind <;> cases same
    rfl
  generalize emptied : emptyOf kind = empty at edited noItems
  cases edited with
  | written same =>
    cases kind <;> cases emptied
    rw [given] at same
    cases same
    exact ⟨rfl, by simp⟩
  | deleted same =>
    subst same
    cases given
  | inserted same inside => simp [noItems _ rfl] at inside
  | replaced same inside => simp [noItems _ rfl] at inside
  | dropped same inside => simp [noItems _ rfl] at inside
  | appended same =>
    cases kind <;> cases emptied
    subst same
    cases given
    exact ⟨rfl, by simp⟩

theorem nothing_in_slot {name : String} {mappedKey : Label} (plain : holder.isPlain = true)
    (isUnset : readProperty context (.text name) mappedKey holder = .ok .null) :
    ∃ entries, holder.entries? = some entries ∧ (Entries.find? name entries).getD .null = .null := by
  cases holder with
  | dict | view => exact ⟨_, rfl, Except.ok.inj isUnset⟩
  | object | missing | location | pointer | description => cases plain
  | _ => cases isUnset

/-- A collection that was made up is stored in a mapping where it was not set. -/
theorem write_made_up {name mappedKey : Label} {collection : Option Collection} {element : Slot}
    (leads : (property name mappedKey collection).slot? = some slot) (plain : holder.isPlain = true)
    (isUnset : readProperty context name mappedKey holder = .ok .null) (given : change.value? = some value)
    (noIndex : ∀ index, element ≠ .index index)
    (written : (property name mappedKey collection).write (.replace (element.single value)) holder = .ok after) :
    EditedAt change [slot, element] holder after := by
  cases name <;> cases leads
  next name =>
  have edited : Slot.Edited _ (.key name) holder after := write_edited rfl plain written
  cases edited with
  | written same =>
    cases same
    obtain ⟨_, same, absent⟩ := nothing_in_slot plain isUnset
    cases same
    exact .madeUp (.stored given absent noIndex)
  | deleted same => cases same

end Access

namespace Route

theorem write_of_edit {prior : Value} (done : (edit context change access [] holder).2 = .ok prior) :
    access.write change holder = .ok (edit context change access [] holder).1 := by
  simp only [edit] at done ⊢
  split at done
  next found edited slot =>
    simp only [editSlot, bind_eq_ok, mapError_eq_ok] at slot
    obtain ⟨_, -, _, written, same⟩ := slot
    cases same
    simp only [written]
  next => cases done

/-- Where something is read on the way, the rest of the way is edited in it, and it is kept. -/
theorem edit_of_set {next : Access} {rest : List Access} {value : Value}
    (read : access.read context (rest.length + 1) holder = .ok value) (isSet : access.isUnsetIn context holder = false) :
    edit context change access (next :: rest) holder =
      (access.absorb (edit context change next rest value).1 holder, (edit context change next rest value).2) := by
  simp only [edit, read, isSet, Bool.false_eq_true, ite_false]

/-- What stands in for a collection that is not set is stored if something has been written to it. -/
theorem edit_of_unset {next : Access} {rest : List Access} {value prior : Value}
    (read : access.read context (rest.length + 1) holder = .ok value) (isUnset : access.isUnsetIn context holder = true) :
    edit context change access (next :: rest) holder = (after, .ok prior) ↔
      (edit context change next rest value).2 = .ok prior ∧
      (change = .remove ∧ after = holder ∨
        change ≠ .remove ∧ access.write (.replace (edit context change next rest value).1) holder = .ok after) := by
  simp only [edit, read, isUnset, ite_true]
  cases edit context change next rest value with
  | mk edited outcome =>
  cases outcome with
  | error failure => simp
  | ok found =>
    cases change with
    | remove => simp [Edit.value?, eq_comm, and_comm]
    | add value | replace value =>
      cases writes : access.write (.replace edited) holder <;> simp [Edit.value?, and_comm]

theorem slot_of_way {rest : List Access} {slots : List Slot}
    (leads : (access :: rest).map Access.slot? = slots.map some) :
    ∃ slot below, slots = slot :: below ∧ access.slot? = some slot ∧ rest.map Access.slot? = below.map some := by
  cases slots with
  | nil => cases leads
  | cons slot below =>
    simp only [List.map_cons, List.cons.injEq] at leads
    exact ⟨slot, below, rfl, leads⟩

private theorem slots_of_end {slots : List Slot} (leads : ([] : List Access).map Access.slot? = slots.map some) :
    slots = [] :=
  List.map_eq_nil_iff.mp leads.symm

/-- An edit that succeeds changes the record where its way leads to, and nowhere else. -/
theorem edit_changes {rest : List Access} {slots : List Slot} {prior : Value}
    (leads : (access :: rest).map Access.slot? = slots.map some) (inside : Slot.dash ∉ slots.dropLast)
    (plain : holder.throughout isPlain = true) (done : (edit context change access rest holder).2 = .ok prior) :
    EditedAt change slots holder (edit context change access rest holder).1 := by
  have shape := check_of_throughout plain
  induction rest generalizing access slots holder with
  | nil =>
    obtain ⟨slot, below, rfl, here, further⟩ := slot_of_way leads
    obtain rfl := slots_of_end further
    exact .slot (Access.write_edited here shape (write_of_edit done))
  | cons next rest ih =>
    obtain ⟨slot, below, rfl, here, further⟩ := slot_of_way leads
    obtain ⟨other, deeper, rfl, last, end_⟩ := slot_of_way further
    simp only [List.dropLast_cons_cons, List.mem_cons, not_or] at inside
    simp only [edit] at done ⊢
    split at done
    next => cases done
    next value read =>
      rcases Access.read_below read with ⟨isSet, -, -⟩ | ⟨isUnset, empty, name, mappedKey, kind, rfl, nothing, rfl⟩
      · simp only [isSet, Bool.false_eq_true, ite_false] at done ⊢
        have found := Access.child_of_read here (Ne.symm inside.1) shape isSet read
        have part := plain_child plain found
        rw [Access.absorb_slot here found]
        exact .inside found (ih further inside.2 part done (check_of_throughout part))
      · -- the collection of the last step is made up, and stored once its element is written
        obtain rfl := List.eq_nil_of_length_eq_zero empty
        obtain rfl := slots_of_end end_
        simp only [isUnset, ite_true] at done ⊢
        split at done
        next outcome given =>
          obtain ⟨element, noIndex⟩ := Access.write_to_empty last given (write_of_edit outcome)
          rw [element] at done ⊢
          split at done
          next stored written =>
            exact Access.write_made_up here shape nothing given noIndex written
          next => cases done
        next outcome noValue =>
          cases change with
          | remove =>
            cases name <;> cases here
            obtain ⟨entries, mapping, absent⟩ := Access.nothing_in_slot shape nothing
            exact .madeUp (.left rfl mapping absent)
          | add value => exact absurd rfl (noValue _ value done)
          | replace value => exact absurd rfl (noValue _ value done)

end Route
end RecordAddress
