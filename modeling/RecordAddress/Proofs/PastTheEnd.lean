import RecordAddress.Proofs.Ancestry
import RecordAddress.Proofs.ArrayRuns

/-! The position after the last element of an array, beside the positions of the elements. What keeps an array from being
read keeps all of them from being read. Of what is read as the array, however, only the positions of elements ask that it
is one. -/

namespace RecordAddress
open Value

namespace Access
variable {context : Context} {access : Access} {depth : Nat} {holder : Value}

/-- A collection right above the last step is read otherwise than one further up, and nothing else is. -/
theorem read_further_up (single : depth = 0 → access.collection? = none) :
    access.read context (depth + 2) holder = access.read context (depth + 1) holder := by
  cases access with
  | property name mappedKey collection =>
    have need (value : Value) : needProperty collection (depth + 2) value = needProperty collection (depth + 1) value := by
      cases collection with
      | none => rfl
      | some kind =>
        have further : depth ≠ 0 := fun last => nomatch single last
        simp [needProperty, further]
    simp only [Access.read, need]
  | position index =>
    rw [read_position, read_position]
    rfl
  | afterLast => rfl
  | entry key =>
    rw [read_entry, read_entry]
    rfl
  | noEntry =>
    rw [read_noEntry, read_noEntry]
    rfl

theorem needProperty_one (kind : Collection) (value : Value) :
    needProperty (some kind) 1 value = .ok (if value.isUnset then emptyOf kind else value) := by
  cases unset : value.isUnset <;> simp [needProperty, unset]

end Access

namespace Route
variable {context : Context} {above : List Access} {name mappedKey : Label} {record : Value}

/-- The last step below a collection fails where the collection cannot be read, and else is taken from it. -/
theorem read_below_collection (kind : Collection) (last : Access)
    (single : ∀ next ∈ above.getLast?, next.collection? = none) :
    read context (above ++ [.property name mappedKey (some kind), last]) record =
      match read context (above ++ [.property name mappedKey (some kind)]) record with
      | .error failure => .error ⟨failure.depth + 1, failure.obstacle⟩
      | .ok value =>
        (last.read context 0 (if value.isUnset then Access.emptyOf kind else value)).mapError (Failure.mk 0) := by
  induction above generalizing record with
  | nil =>
    cases found : Access.readProperty context name mappedKey record with
    | error obstacle =>
      simp only [List.nil_append, read, Access.read, found]
      rfl
    | ok value =>
      have further : (Access.property name mappedKey (some kind)).read context 1 record =
          .ok (if value.isUnset then Access.emptyOf kind else value) := by
        simp only [Access.read, found]
        exact Access.needProperty_one kind value
      have alone : (Access.property name mappedKey (some kind)).read context 0 record = .ok value := by
        simp only [Access.read, found]
        rfl
      rw [List.nil_append, List.nil_append, read_step further, read_last, read_step alone, read]
  | cons access above ih =>
    have same : access.read context (above.length + 2) record = access.read context (above.length + 1) record := by
      apply Access.read_further_up
      intro last
      obtain rfl := List.eq_nil_of_length_eq_zero last
      exact single access rfl
    simp only [List.cons_append, read, List.length_append, List.length_cons, List.length_nil, Nat.zero_add, same]
    cases access.read context (above.length + 1) record with
    | error obstacle => rfl
    | ok part => exact ih (single_below single)

end Route

namespace Pointer
variable {registry : Registry} {memory : Memory} {container : Container} {array : Pointer} {record value : Value}
  {fault : AccessFault}

theorem faultAt_succ (pointer : Pointer) (depth : Nat) (obstacle : Obstacle) :
    pointer.faultAt ⟨depth + 1, obstacle⟩ = pointer.parent.faultAt ⟨depth, obstacle⟩ := by
  simp only [faultAt, ancestor_succ]

/-- What keeps an array from being read keeps its elements from being read. Else they are read from it, and from an empty
one where it is unset. -/
theorem get_below_array (reached : Reached container array) (isArray : array.IsArray) (token : String) (index : ElementIndex) :
    (element array token index).get { registry, memory } record =
      match array.get { registry, memory } record with
      | .error fault => .error fault
      | .ok value =>
        (index.access.read { registry, memory } 0 (if value.isUnset then .list [] else value)).mapError fun obstacle =>
          (element array token index).faultAt ⟨0, obstacle⟩ := by
  obtain ⟨parent, above, target, children, rfl, collection⟩ := isArray
  have isCollection : Amendments.collection? {} target = some .array := by
    rw [Amendments.collection?_unchanged, collection]
  rw [get, get, route_of_element, route, List.append_assoc, List.singleton_append, accessOf, isCollection,
    Route.read_below_collection .array index.access (no_collection_above reached)]
  cases Route.read { registry, memory } (parent.route {} ++ [.property _ _ (some .array)]) record with
  | error failure => exact congrArg Except.error (faultAt_succ (element _ token index) failure.depth failure.obstacle)
  | ok value =>
    simp only [mapError_ok, Access.emptyOf]
    cases index.access.read { registry, memory } 0 (if value.isUnset then .list [] else value) <;> rfl

section Below
variable (reached : Reached container array) (isArray : array.IsArray)
include reached isArray

theorem get_below_unreadable (failed : array.get { registry, memory } record = .error fault) (token : String)
    (index : ElementIndex) : (element array token index).get { registry, memory } record = .error fault := by
  rw [get_below_array reached isArray, failed]

theorem get_after_last (got : array.get { registry, memory } record = .ok value) (token : String) :
    (element array token .afterLast).get { registry, memory } record = .ok .missing := by
  rw [get_below_array reached isArray, got]
  rfl

theorem get_at_position (got : array.get { registry, memory } record = .ok value) (token : String) (position : Nat) :
    (element array token (.position position)).get { registry, memory } record =
      match if value.isUnset then some [] else value.items? with
      | some items => .ok (items[position]?.getD .missing)
      | none => .error (.data ⟨element array token (.position position), .expected .array⟩) := by
  rw [get_below_array reached isArray, got, ElementIndex.access]
  simp only [Access.read_position]
  cases value <;> rfl

end Below

/-- Where an array cannot be read, neither can its positions nor what is after its last element, for the same fault. Where
it can be read, nothing is found after its last element, and at its positions are its items, of which an array that is
unset has none. But if what is there is no array, the positions are all refused, while nothing is found after the last
element still. It is there alone that the one is refused and the others are not. -/
theorem only_positions_ask_for_an_array (reached : Reached container array) (isArray : array.IsArray) (registry : Registry)
    (memory : Memory) (record : Value) :
    let context : Context := { registry, memory }
    let dash := element array "-" .afterLast
    let element := fun token position => Pointer.element array token (.position position)
    (∀ fault, array.get context record = .error fault →
      dash.get context record = .error fault ∧
      ∀ token position, (element token position).get context record = .error fault) ∧
    (∀ value, array.get context record = .ok value →
      dash.get context record = .ok .missing ∧
      ∀ token position, (element token position).get context record =
        match if value.isUnset then some [] else value.items? with
        | some items => .ok (items[position]?.getD .missing)
        | none => .error (.data ⟨element token position, .expected .array⟩)) ∧
    (((∃ fault, dash.get context record = .error (.data fault)) ↔
        ∀ token position, ∃ fault, (element token position).get context record = .error (.data fault)) ↔
      ∀ value, array.get context record = .ok value → value.isUnset = true ∨ value.isArray = true) := by
  refine ⟨fun fault failed => ?_, fun value got => ?_, ?_⟩
  · have below := get_below_unreadable reached isArray failed
    exact ⟨below "-" .afterLast, fun token position => below token (.position position)⟩
  · exact ⟨get_after_last reached isArray got "-", get_at_position reached isArray got⟩
  cases read : array.get { registry, memory } record with
  | error fault =>
    have below := get_below_unreadable reached isArray read
    simp only [below, reduceCtorEq, false_implies, implies_true, iff_true, Except.error.injEq]
    exact ⟨fun same _ _ => same, fun same => same "" 0⟩
  | ok value =>
    have shape : value.isUnset = true ∨ value.isArray = true ↔
        (if value.isUnset then some [] else value.items?).isSome = true := by
      cases value <;> simp [isUnset, Value.isArray, items?]
    simp only [get_after_last reached isArray read, get_at_position reached isArray read, reduceCtorEq, exists_false,
      false_iff, Except.ok.injEq, forall_eq', shape]
    cases if value.isUnset then some [] else value.items? <;> simp

/-- At the positions of an order that has one tag there is nothing but that tag, and nothing is found after it. -/
theorem one_tag_is_at_its_position :
    let context : Context := { registry := Orders.registry }
    let tags := Orders.nextTag.parent
    let record : Value := .dict [("tags", .list [.text "new"])]
    Reached Orders.container tags ∧ tags.IsArray ∧ tags.get context record = .ok (.list [.text "new"]) ∧
    Orders.nextTag.get context record = .ok .missing ∧
    (element tags "0" (.position 0)).get context record = .ok (.text "new") ∧
    ∀ token position, (element tags token (.position (position + 1))).get context record = .ok .missing := by
  intro context tags record
  have isArray : tags.IsArray := ⟨_, _, _, _, rfl, rfl⟩
  have got : tags.get context record = .ok (.list [.text "new"]) := rfl
  obtain ⟨nothing, reads⟩ :=
    (only_positions_ask_for_an_array tags_reached isArray context.registry context.memory record).2.1 _ got
  exact ⟨tags_reached, isArray, got, nothing, reads "0" 0, fun token position => reads token (position + 1)⟩

/-- Where an order has a word for its tags, no position can be read, but what is after the last tag is only missing. -/
theorem next_tag_of_a_word_is_missing :
    let context : Context := { registry := Orders.registry }
    let tags := Orders.nextTag.parent
    let record : Value := .dict [("tags", .text "red")]
    (parse context Orders.container true (.text "/tags/-")).outcome = .ok Orders.nextTag ∧ tags.IsArray ∧
    tags.get context record = .ok (.text "red") ∧ Orders.nextTag.get context record = .ok .missing ∧
    (∀ token position, ∃ fault, (element tags token (.position position)).get context record = .error (.data fault)) ∧
    ¬ ((∃ fault, Orders.nextTag.get context record = .error (.data fault)) ↔
      ∀ token position, ∃ fault, (element tags token (.position position)).get context record = .error (.data fault)) := by
  intro context tags record
  have missing : Orders.nextTag.get context record = .ok .missing := rfl
  have refused (token : String) (position : Nat) :
      ∃ fault, (element tags token (.position position)).get context record = .error (.data fault) := ⟨_, rfl⟩
  refine ⟨rfl, ⟨_, _, _, _, rfl, rfl⟩, rfl, missing, refused, fun agree => ?_⟩
  obtain ⟨fault, failed⟩ := agree.mpr refused
  cases missing.symm.trans failed

end Pointer
end RecordAddress
