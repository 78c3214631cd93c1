import RecordAddress.Proofs.Outcomes

/-! What a write can do. Each kind of slot takes a write in one way, and whatever is not told of here takes none. -/

namespace RecordAddress
open Value

/-- Whether the value is a part of its record: neither a pointer nor something that one shows. -/
def Value.isOwn : Value → Bool
  | pointer _ | description .. => false
  | _ => true

/-- The items after an edit at an index that is inside. -/
def Edit.onItems (index : Nat) (items : List Value) : Edit → List Value
  | .add value => items.take index ++ value :: items.drop index
  | .replace value => items.set index value
  | .remove => items.eraseIdx index

theorem Access.write_list (index : Nat) (change : Edit) (items : List Value) :
    (position index).write change (.list items) =
      if items.length ≤ index then .error (.mismatch .outOfBounds) else .ok (.list (change.onItems index items)) := by
  simp only [Access.write, writePosition, isChangeableArray, expect, Value.length, attempt, mapError_ok, bind, Except.bind,
    ite_true]
  by_cases beyond : items.length ≤ index
  · rw [if_pos beyond, if_pos beyond]
  · have inside := Nat.lt_of_not_le beyond
    rw [if_neg beyond, if_neg beyond]
    cases change with
    | add value => rfl
    | replace value => simp only [setItem, inside, ite_true, mapError_ok, Edit.onItems]
    | remove => simp only [removeItem, inside, ite_true, mapError_ok, Edit.onItems]

namespace Access
variable {access : Access} {change : Edit} {holder edited : Value}

/-- What a write makes of a part of the record that takes it. -/
inductive Wrote (change : Edit) : Access → Value → Value → Prop
  | put {name : String} {mappedKey : Label} {collection : Option Collection} {value : Value} {entries : Entries Value} :
      change.value? = some value →
      Wrote change (property (.text name) mappedKey collection) (dict entries) (dict (Entries.put name value entries))
  | erased {name : String} {mappedKey : Label} {collection : Option Collection} {entries : Entries Value} :
      change = .remove →
      Wrote change (property (.text name) mappedKey collection) (dict entries) (dict (Entries.erase name entries))
  /-- Under a key that no text is there is nothing to remove. -/
  | nowhere {mappedKey : Label} {collection : Option Collection} {entries : Entries Value} : change = .remove →
      Wrote change (property .other mappedKey collection) (dict entries) (dict entries)
  | set {name : Label} {key : String} {collection : Option Collection} {attributes : Entries Value} :
      Wrote change (property name (.text key) collection) (object attributes)
        (object (Entries.put key (change.value?.getD .null) attributes))
  | tokens {name : Label} {collection : Option Collection} {tokens : Value} {attributes : Entries Value} :
      Wrote change (property name (.text tokensKey) collection) (location tokens attributes)
        (location (change.value?.getD .null) attributes)
  | further {name : Label} {key : String} {collection : Option Collection} {tokens : Value}
      {attributes : Entries Value} : key ≠ pathKey → key ≠ tokensKey →
      Wrote change (property name (.text key) collection) (location tokens attributes)
        (location tokens (Entries.put key (change.value?.getD .null) attributes))
  | item {index : Nat} {items : List Value} : index < items.length →
      Wrote change (position index) (list items) (list (change.onItems index items))
  | appended {value : Value} {items : List Value} : change = .add value →
      Wrote change afterLast (list items) (list (items ++ [value]))
  | entered {key : String} {value : Value} {entries : Entries Value} : change.value? = some value →
      Wrote change (entry key) (dict entries) (dict (Entries.put key value entries))
  | dropped {key : String} {entries : Entries Value} : change = .remove →
      Wrote change (entry key) (dict entries) (dict (Entries.erase key entries))
  | noEntry {entries : Entries Value} : change = .remove → Wrote change noEntry (dict entries) (dict entries)

theorem Wrote.to {after : Value} (wrote : Wrote change access holder edited) (same : edited = after) :
    Wrote change access holder after := by
  rwa [same] at wrote

private theorem wrote_of_property {name mappedKey : Label} {collection : Option Collection} (own : holder.isOwn = true)
    (written : (property name mappedKey collection).write change holder = .ok edited) :
    Wrote change (property name mappedKey collection) holder edited := by
  cases holder with
  | dict entries =>
    cases name with
    | text name =>
      cases change with
      | add | replace =>
        cases written
        exact .put rfl
      | remove =>
        cases written
        exact .erased rfl
    | other =>
      cases change with
      | add | replace => cases written
      | remove =>
        cases written
        exact .nowhere rfl
    | unusable => cases written
  | object attributes =>
    cases mappedKey with
    | text key =>
      cases written
      exact .set
    | other | unusable => cases written
  | location tokens attributes =>
    cases mappedKey with
    | text key =>
      have set : (location tokens attributes).setAttribute key (change.value?.getD .null) = .ok edited :=
        attempt_eq_ok.mp written
      by_cases path : key = pathKey
      · subst path
        cases set
      by_cases parts : key = tokensKey
      · subst parts
        cases set
        exact .tokens
      · simp only [setAttribute, path, parts, ite_false] at set
        cases set
        exact .further path parts
    | other | unusable => cases written
  | missing => cases mappedKey <;> cases written
  | pointer | description => cases own
  | _ => cases written

/-- A write to a part of the record succeeds in these ways, and in no other one. -/
theorem write_eq_ok (own : holder.isOwn = true) :
    access.write change holder = .ok edited ↔ Wrote change access holder edited := by
  constructor
  · intro written
    cases access with
    | property => exact wrote_of_property own written
    | position index =>
      cases holder with
      | list items =>
        rw [write_list] at written
        split at written
        · cases written
        next inside =>
          cases written
          exact .item (Nat.lt_of_not_le inside)
      | _ => cases written
    | afterLast =>
      cases holder with
      | list =>
        cases change with
        | add =>
          cases written
          exact .appended rfl
        | replace | remove => cases written
      | _ => cases written
    | entry | noEntry =>
      cases holder with
      | dict =>
        cases change <;> cases written <;> first | exact .entered rfl | exact .dropped rfl | exact .noEntry rfl
      | _ => cases written
  · intro wrote
    cases wrote with
    | put given | entered given =>
      simp only [write, given]
      rfl
    | erased removed | nowhere removed | dropped removed | noEntry removed | appended removed =>
      subst removed
      rfl
    | set | tokens => rfl
    | further path parts =>
      exact attempt_eq_ok.mpr (by simp [setAttribute, path, parts])
    | item inside => rw [write_list, if_neg (Nat.not_le_of_lt inside)]

end Access
end RecordAddress
