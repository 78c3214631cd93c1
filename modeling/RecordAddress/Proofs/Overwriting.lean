import RecordAddress.Proofs.ArrayRuns
import RecordAddress.Proofs.Sites

/-! What is written to a record is read from it. The slot that an edit wrote is found again by the way that led to it,
and what is written there next leaves no trace of what was written first. -/

namespace RecordAddress
open Value

/-- The same change with another value. -/
def Edit.giving (other : Value) : Edit → Edit
  | add _ => .add other
  | replace _ => .replace other
  | remove => .remove

namespace Edit
variable {change : Edit} {items : List Value} {index : Nat} {value : Value}

theorem value?_giving (given : change.value? = some value) (other : Value) : (change.giving other).value? = some other := by
  cases change <;> first | rfl | cases given

theorem onItems_giving (given : change.value? = some value) (inside : index < items.length) (other : Value) :
    index < (change.onItems index items).length ∧ (change.onItems index items)[index]? = some value ∧
      (change.onItems index items).set index other = (change.giving other).onItems index items := by
  cases change with
  | add =>
    cases given
    have before : (items.take index).length = index := by simp [Nat.le_of_lt inside]
    simp only [onItems, giving]
    refine ⟨by simp; omega, ?_, ?_⟩
    · rw [List.getElem?_append_right (by omega), before, Nat.sub_self, List.getElem?_cons_zero]
    · rw [List.set_append_right _ _ (by omega), before, Nat.sub_self, List.set_cons_zero]
  | replace =>
    cases given
    simp [onItems, giving, inside]
  | remove => cases given

end Edit

namespace Access
variable {access : Access} {change : Edit} {holder edited value : Value}

/-- What was written to a slot is read of it. -/
theorem read_of_write (own : holder.isOwn = true) (given : change.value? = some value) (inside : access ≠ .afterLast)
    (written : access.write change holder = .ok edited) : access.read {} 0 edited = .ok value := by
  cases (write_eq_ok own).mp written with
  | put | erased | nowhere | set | tokens | further =>
    obtain ⟨-, -, read⟩ := property_of_write own given written
    simp only [Access.read, read]
    rfl
  | item within =>
    obtain ⟨-, found, -⟩ := Edit.onItems_giving given within .null
    rw [read_position]
    simp only [items?, found, Option.getD_some]
    rfl
  | appended => exact absurd rfl inside
  | entered same =>
    cases given.symm.trans same
    rw [read_entry]
    simp only [entries?, Entries.find?_put, ite_true, Option.getD_some]
    rfl
  | dropped removed | noEntry removed =>
    subst removed
    cases given

/-- A slot that was written can be written again, which leaves what writing there once would have. -/
theorem write_again (own : holder.isOwn = true) (given : change.value? = some value) (inside : access ≠ .afterLast)
    (written : access.write change holder = .ok edited) (other : Value) :
    ∃ last, access.write (.replace other) edited = .ok last ∧ access.write (change.giving other) holder = .ok last := by
  have gives := Edit.value?_giving given other
  cases (write_eq_ok own).mp written with
  | put | erased | nowhere | set | tokens | further =>
    obtain ⟨again, once⟩ := write_twice own given written other
    refine ⟨_, again, ?_⟩
    rw [← once]
    simp only [write, gives]
    rfl
  | item within =>
    obtain ⟨still, -, same⟩ := Edit.onItems_giving given within other
    refine ⟨_, (write_eq_ok rfl).mpr (.item still), ?_⟩
    rw [Edit.onItems, same]
    exact (write_eq_ok rfl).mpr (.item within)
  | appended => exact absurd rfl inside
  | entered =>
    refine ⟨_, (write_eq_ok rfl).mpr (.entered rfl), ?_⟩
    rw [Entries.put_put]
    exact (write_eq_ok rfl).mpr (.entered gives)
  | dropped removed | noEntry removed =>
    subst removed
    cases given

theorem append_of_write (own : holder.isOwn = true) (written : afterLast.write change holder = .ok edited) :
    ∃ items value, holder = .list items ∧ change = .add value ∧ edited = .list (items ++ [value]) := by
  cases (write_eq_ok own).mp written with
  | appended added => exact ⟨_, _, rfl, added, rfl⟩

end Access

namespace Pointer
variable {registry : Registry} {memory : Memory} {pointer : Pointer} {change : Edit} {record after prior value : Value}

private theorem proper_giving {other : Value} (proper : pointer.misuse? {} change = none)
    (otherProper : pointer.misuse? {} (.replace other) = none) : pointer.misuse? {} (change.giving other) = none := by
  cases change with
  | add =>
    simp only [misuse?, Option.orElse_eq_orElse, Option.orElse_eq_or, Option.or_eq_none_iff] at otherProper
    exact otherProper.1
  | replace => exact otherProper
  | remove => exact proper

theorem EndsWith.isDash_iff {last : Access} (ends : pointer.EndsWith last) :
    pointer.isDash = true ↔ last = .afterLast := by
  cases ends with
  | property => exact ⟨nofun, nofun⟩
  | element parent token index => cases index <;> simp [ElementIndex.access, isDash, index?]

/-- What was written through a pointer is read through it, and can be replaced by what might have been written there in
the first place. What was appended is at the index that the array had as its length, behind the elements that it had.
Nothing on the way there may be made up anew each time that it is asked for. -/
theorem written_value_is_read (given : change.value? = some value)
    (own : ∀ met ∈ Route.trace { registry, memory } (pointer.parent.route {}) record, met.isOwn = true)
    (done : pointer.edit { registry, memory } change record = (after, .ok prior)) :
    pointer.amend { registry, memory } change record = {} ∧
    (pointer.isDash = false → ∀ present later,
      pointer.get { registry := present, memory := later } after = .ok value ∧
      ∀ other, pointer.misuse? {} (.replace other) = none → ∃ last,
        pointer.edit { registry := present, memory := later } (.replace other) after = (last, .ok value) ∧
        pointer.edit { registry, memory } (change.giving other) record = (last, .ok prior)) ∧
    (pointer.isDash = true → ∃ items?, pointer.parent.get { registry, memory } record = .ok (ofArray items?) ∧
      ∀ present later,
        pointer.get { registry := present, memory := later } after = .ok .missing ∧
        ∀ token, let element := fun position => Pointer.element pointer.parent token (.position position)
          let length := (items?.getD []).length
          (element length).get { registry := present, memory := later } after = .ok value ∧
          ∀ position < length, (element position).get { registry := present, memory := later } after =
            (element position).get { registry, memory } record) := by
  have proper := proper_of_edit done
  obtain ⟨last, ends⟩ := exists_endsWith (notRoot_of_proper proper)
  obtain ⟨place, store, edited, site, ownPlace, read, written, stored⟩ := site_of_edit ends done own
  obtain ⟨before, kept⟩ := Access.holder_of_write ownPlace written
  obtain ⟨along, stores⟩ := site.again before kept given stored
  have siteAfter := Route.Site.found along fun _ => (set_of_holder kept).1
  have ownEdited := own_of_holder kept
  refine ⟨amend_at ends site ownPlace, fun noDash present later => ?_, fun isDash => ?_⟩
  · have inside : last ≠ .afterLast := fun same => Bool.false_ne_true (noDash.symm.trans (ends.isDash_iff.mpr same))
    have found := Access.read_of_write ownPlace given inside written
    refine ⟨(get_at ends siteAfter ownEdited).mpr found, fun other otherProper => ?_⟩
    obtain ⟨rewritten, again, once⟩ := Access.write_again ownPlace given inside written other
    have gives : (change.giving other).value?.isSome = true := by rw [Edit.value?_giving given]; rfl
    refine ⟨_, (edit_at ends siteAfter ownEdited otherProper).mpr ⟨found, rewritten, again, rfl⟩, ?_⟩
    exact (edit_at ends site ownPlace (proper_giving proper otherProper)).mpr ⟨read, rewritten, once, stores _ _ gives⟩
  · obtain rfl := ends.isDash_iff.mp isDash
    obtain ⟨items, appended, rfl, rfl, rfl⟩ := Access.append_of_write ownPlace written
    cases given
    have array : ∃ items?, pointer.parent.get { registry, memory } record = .ok (ofArray items?) ∧ items?.getD [] = items := by
      rcases site.read_place registry memory with here | ⟨nothing, kind, empty⟩
      · exact ⟨some items, mapError_eq_ok.mpr here, rfl⟩
      · refine ⟨none, mapError_eq_ok.mpr nothing, ?_⟩
        cases kind <;> cases empty
        rfl
    obtain ⟨items?, got, rfl⟩ := array
    refine ⟨items?, got, fun present later => ⟨(get_at ends siteAfter rfl).mpr rfl, fun token => ⟨?_, ?_⟩⟩⟩
    · rw [position_at siteAfter, List.getElem?_concat_length]
      rfl
    · intro position inside
      rw [position_at siteAfter, position_at site, List.getElem?_append_left inside]

/-- The first note of an order without notes is written, and another one is written over it. -/
theorem first_note_is_rewritten :
    let context : Context := { registry := Orders.registry }
    let note := Orders.note "first"
    ∃ after last,
      (Edit.add (.text "new")).value? = some (.text "new") ∧
      (∀ met ∈ Route.trace context (note.parent.route {}) (.dict []), met.isOwn = true) ∧
      note.edit context (.add (.text "new")) (.dict []) = (after, .ok .missing) ∧
      note.isDash = false ∧ note.misuse? {} (.replace (.text "newer")) = none ∧
      note.get context after = .ok (.text "new") ∧
      note.edit context (.replace (.text "newer")) after = (last, .ok (.text "new")) ∧
      note.edit context (.add (.text "newer")) (.dict []) = (last, .ok .missing) := by
  intro context note
  have given : (Edit.add (.text "new")).value? = some (.text "new") := rfl
  have own : ∀ met ∈ Route.trace context (note.parent.route {}) (.dict []), met.isOwn = true := by
    have met : Route.trace context (note.parent.route {}) (.dict []) = [.dict [], .null] := rfl
    simp [met, isOwn]
  obtain ⟨after, done⟩ : ∃ after, note.edit context (.add (.text "new")) (.dict []) = (after, .ok .missing) := ⟨_, rfl⟩
  obtain ⟨read, rewrites⟩ := (written_value_is_read given own done).2.1 rfl context.registry context.memory
  obtain ⟨last, again, once⟩ := rewrites (.text "newer") rfl
  exact ⟨after, last, given, own, done, rfl, rfl, read, again, once⟩

/-- A pointer makes up its location anew whenever it is asked for it, so that the tokens which are written to one are
not those of the next. -/
theorem tokens_of_a_pointer_are_not_written :
    ∃ container pointer after,
      ({} : Context).root pointerHolder = .ok container ∧
      (parse {} container true (.text "/held/location/parts")).outcome = .ok pointer ∧
      pointer.isRoot = false ∧ pointer.isDash = false ∧
      let record : Value := .dict [("held", .pointer (.root container))]
      pointer.edit {} (.replace (.list [.text "new"])) record = (after, .ok (.list [])) ∧
      pointer.get {} after = .ok (.list []) ∧ pointer.get {} after ≠ .ok (.list [.text "new"]) :=
  ⟨_, _, _, rfl, rfl, rfl, rfl, rfl, rfl, nofun⟩

end Pointer
end RecordAddress
