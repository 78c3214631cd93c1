import RecordAddress.Proofs.Actions
import RecordAddress.Proofs.Orders
import RecordAddress.Proofs.Reading

/-! Edits that fail change nothing. An edit answers with the record as its parts are afterwards, so the
failures on the way, at the slot, and in storing a collection made up for it are all accounted for. -/

namespace RecordAddress
open Value

variable {context : Context}

private theorem keepAttribute_of_read {holder value : Value} {key : String}
    (read : holder.attributeAt context key = .ok value) (present : value.isUnset = false) :
    holder.keepAttribute key value = holder := by
  cases holder with
  | object attributes =>
    cases found : Entries.find? key attributes with
    | none =>
      simp only [attributeAt, found, Option.getD_none, Except.ok.injEq] at read
      subst read
      cases present
    | some stored =>
      simp only [attributeAt, found, Option.getD_some, Except.ok.injEq] at read
      subst read
      simp only [keepAttribute, Entries.put_of_find? found]
  | location tokens attributes =>
    simp only [attributeAt, Except.ok.injEq] at read
    simp only [keepAttribute]
    split at read
    next path => simp only [path, ite_true]
    next noPath =>
      split at read
      next parts => simp only [parts, tokensKey, pathKey, read]; simp
      next noParts =>
        simp only [noPath, noParts, ite_false]
        split
        next known =>
          obtain ⟨stored, found⟩ := Option.isSome_iff_exists.mp known
          simp only [found, Option.getD_some] at read
          rw [← read, Entries.put_of_find? found]
        next => rfl
  | _ => rfl

private theorem put_of_getD {entries : Entries Value} {key : String} {absent value : Value}
    (read : (Entries.find? key entries).getD absent = value) (present : value ≠ absent) :
    Entries.put key value entries = entries := by
  cases found : Entries.find? key entries with
  | none =>
    rw [found] at read
    exact absurd read.symm present
  | some stored =>
    rw [found] at read
    exact Entries.put_of_find? (found.trans (congrArg some read))

private theorem put_of_entry {entries : Entries Value} {key : String} {depth : Nat} {value : Value}
    (read : Access.needElement (depth + 1) ((Entries.find? key entries).getD .missing) = .ok value) :
    Entries.put key value entries = entries := by
  obtain ⟨found, settled⟩ := Access.needElement_eq_ok.mp read
  apply put_of_getD found
  rintro rfl
  cases (settled (by simp)).2

private theorem set_of_item {items : List Value} {index depth : Nat} {value : Value}
    (read : Access.needElement (depth + 1) (items[index]?.getD .missing) = .ok value) :
    items.set index value = items := by
  obtain ⟨found, settled⟩ := Access.needElement_eq_ok.mp read
  cases inside : items[index]? with
  | none =>
    rw [inside] at found
    subst found
    cases (settled (by simp)).2
  | some stored =>
    rw [inside] at found
    subst found
    obtain ⟨bound, rfl⟩ := List.getElem?_eq_some_iff.mp inside
    exact List.set_getElem_self bound

namespace Access

private theorem absorb_property {name mappedKey : Label} {collection : Option Collection} {holder value : Value}
    (present : value.isUnset = false)
    (read : readProperty context name mappedKey holder = .ok value) :
    (property name mappedKey collection).absorb value holder = holder := by
  have notNull : value ≠ .null := by
    rintro rfl
    cases present
  simp only [readProperty, bind_eq_ok, expect_eq_ok] at read
  obtain ⟨_, isObject, read⟩ := read
  by_cases mapping : holder.isMapping = true
  · rw [if_pos mapping] at read
    cases name with
    | text name =>
      cases holder <;> simp only [isMapping, entries?, Option.isSome_none, Bool.false_eq_true] at mapping
      all_goals
        change Except.ok ((Entries.find? name _).getD Value.null) = _ at read
        simp only [absorb, put_of_getD (Except.ok.inj read) notNull]
    | other =>
      cases read
      cases present
    | unusable => cases read
  · rw [if_neg mapping] at read
    cases mappedKey with
    | text key =>
      have kept := keepAttribute_of_read (attempt_eq_ok.mp read) present
      cases holder <;> first | exact absurd rfl mapping | (cases name <;> exact kept)
    | other => cases read
    | unusable => cases read

/-- Putting back what was read below a holder changes nothing. -/
theorem absorb_of_read {access : Access} {depth : Nat} {holder value : Value}
    (isSet : access.isUnsetIn context holder = false)
    (read : access.read context (depth + 1) holder = .ok value) : access.absorb value holder = holder := by
  rcases read_below read with ⟨-, found, present⟩ | ⟨isUnset, -⟩
  · cases access with
    | property name mappedKey collection =>
      simp only [Access.read, bind_eq_ok] at found
      obtain ⟨_, found, same⟩ := found
      cases same
      exact absorb_property present found
    | position index =>
      rw [read_position] at read
      cases holder <;> simp only [items?, reduceCtorEq] at read <;> simp only [absorb, set_of_item read]
    | afterLast => rfl
    | entry key =>
      rw [read_entry] at read
      cases holder <;> simp only [entries?, reduceCtorEq] at read <;> simp only [absorb, put_of_entry read]
    | noEntry => rfl
  · rw [isSet] at isUnset
    cases isUnset

end Access

namespace Route

/-- An edit that fails leaves the record as it was, wherever on the way it fails. -/
theorem edit_failed {change : Edit} {access : Access} {rest : List Access} {holder : Value} {failure : Failure}
    (failed : (edit context change access rest holder).2 = .error failure) :
    (edit context change access rest holder).1 = holder := by
  induction rest generalizing access holder with
  | nil =>
    simp only [edit] at failed ⊢
    split at failed
    · cases failed
    · rfl
  | cons next rest ih =>
    simp only [edit] at failed ⊢
    split at failed
    next => rfl
    next value read =>
      rcases Access.read_below read with ⟨isSet, -⟩ | ⟨isUnset, -⟩
      · simp only [isSet, Bool.false_eq_true, ite_false] at failed ⊢
        rw [ih failed]
        exact Access.absorb_of_read isSet read
      · -- the edited element is in a collection of its own until that is stored
        simp only [isUnset, ite_true] at failed ⊢
        split at failed
        next =>
          split at failed
          · cases failed
          · rfl
        next => rfl

end Route

theorem Pointer.edit_failed {pointer : Pointer} {change : Edit} {record : Value} {fault : AccessFault}
    (failed : (pointer.edit context change record).2 = .error fault) :
    (pointer.edit context change record).1 = record := by
  unfold Pointer.edit at failed ⊢
  split at failed
  next => rfl
  next => cases failed
  next access rest proper way =>
    obtain ⟨failure, failed, -⟩ := mapError_eq_error.mp failed
    exact Route.edit_failed failed

namespace Session

/-- An edit that fails, by misuse or by what the record holds, leaves the whole record as it was and reports
no event. All that remains of it are the containers that it opened. -/
theorem failed_edit_changes_nothing (session : Session) (pointer : Pointer) (change : Edit) (failure : Failure)
    (failed : (act (runEdit pointer change) session).1.1 = .error failure) :
    (act (runEdit pointer change) session).2.record = session.record ∧
    (act (runEdit pointer change) session).1.2 = [] ∧
    ∃ opened, (act (runEdit pointer change) session).2 = (session.keeping opened).quiet := by
  rw [act_eq] at failed ⊢
  cases misuse : pointer.misuse? session.quiet.context.amendments change with
  | some misuse =>
    rw [runEdit_misuse misuse]
    exact ⟨rfl, rfl, [], rfl⟩
  | none =>
    cases outcome : (pointer.edit session.quiet.context change session.quiet.record).2 with
    | ok prior =>
      cases (runEdit_ok misuse outcome).symm.trans failed
    | error fault =>
      obtain ⟨opened, after⟩ := runEdit_error misuse outcome
      have kept : (pointer.edit session.quiet.context change session.quiet.record).1 = session.quiet.record :=
        Pointer.edit_failed outcome
      rw [after, kept]
      exact ⟨rfl, rfl, opened, rfl⟩

/-- The tag is put into a collection made up for the missing one, which the record then refuses to store. -/
theorem refused_tag_changes_nothing :
    let session : Session := { rootLabel := "Order", record := .view [] }
    let refused : Failure := .data ⟨Orders.nextTag.parent, .expected .object⟩
    (act (runEdit Orders.nextTag (.add (.text "new"))) session).1.1 = .error refused ∧
    (act (runEdit Orders.nextTag (.add (.text "new"))) session).2.record = .view [] :=
  ⟨rfl, (failed_edit_changes_nothing { rootLabel := "Order", record := .view [] } Orders.nextTag
    (.add (.text "new")) (.data ⟨Orders.nextTag.parent, .expected .object⟩) rfl).1⟩

end Session
end RecordAddress
