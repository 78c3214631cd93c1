import RecordAddress.Proofs.Overwriting

/-! Edits that undo others. What was added to an array or to a map is removed again, and what was replaced is put back, by
edits that need nothing but the answer to the one before, and the whole record is as it was. -/

namespace RecordAddress
open Value

theorem Entries.erase_put_of_absent {key : String} {value : Value} {entries : Entries Value}
    (absent : Entries.find? key entries = none) : Entries.erase key (Entries.put key value entries) = entries := by
  rw [Entries.put_of_absent (Entries.find?_eq_none.mp absent)]
  simpa [Entries.erase] using Entries.erase_of_find? absent

namespace Access
variable {access : Access} {holder edited part value : Value}

/-- What a value stores in the slot of a step. What all locations have of their kind alone is stored in none of them. -/
def stored? (access : Access) (holder : Value) : Option Value :=
  match access, holder with
  | property (.text name) _ _, .dict entries | property (.text name) _ _, .view entries => Entries.find? name entries
  | property _ (.text key) _, .object attributes => Entries.find? key attributes
  | property _ (.text key) _, .location tokens attributes =>
    if key = tokensKey then some tokens else Entries.find? key attributes
  | position index, holder => holder.items?.bind (·[index]?)
  | entry key, holder => holder.entries?.bind (Entries.find? key)
  | _, _ => none

theorem set_of_stored (stored : access.stored? holder = some part) : holder.isUnset = false := by
  cases holder with
  | null => cases access with
    | property name mappedKey => cases name <;> cases mappedKey <;> cases stored
    | position | afterLast | entry | noEntry => cases stored
  | _ => rfl

/-- What is stored in a slot that can be written can be read of it, and written there without changing anything. -/
theorem write_stored (own : holder.isOwn = true) (stored : access.stored? holder = some part)
    (written : access.write (.replace value) holder = .ok edited) :
    access.read {} 0 holder = .ok part ∧ access.write (.replace part) holder = .ok holder := by
  have replaces : (Edit.replace part).value? = some part := rfl
  rw [write_eq_ok own]
  cases (write_eq_ok own).mp written with
  | @put name _ _ _ entries =>
    have found : Entries.find? name entries = some part := stored
    exact ⟨congrArg (fun found : Option Value => Except.ok (found.getD .null)) found,
      (Wrote.put replaces).to (congrArg dict (Entries.put_of_find? found))⟩
  | @set name key _ attributes =>
    have found : Entries.find? key attributes = some part := by cases name <;> exact stored
    exact ⟨congrArg (fun found : Option Value => Except.ok (found.getD .null)) found,
      Wrote.set.to (congrArg object (Entries.put_of_find? found))⟩
  | @tokens name _ tokens attributes =>
    obtain rfl : tokens = part := by cases name <;> exact Option.some.inj stored
    exact ⟨rfl, .tokens⟩
  | @further name key _ tokens attributes path parts =>
    have found : Entries.find? key attributes = some part := by cases name <;> simpa [stored?, parts] using stored
    have held : (location tokens attributes).attributeAt {} key = .ok part := by simp [attributeAt, path, parts, found]
    exact ⟨bind_eq_ok.mpr ⟨part, attempt_eq_ok.mpr held, rfl⟩,
      (Wrote.further path parts).to (congrArg (location tokens) (Entries.put_of_find? found))⟩
  | @item index items inside =>
    have found : items[index]? = some part := stored
    obtain ⟨_, rfl⟩ := List.getElem?_eq_some_iff.mp found
    refine ⟨?_, (Wrote.item inside).to (congrArg list (List.set_getElem_self inside))⟩
    rw [read_position]
    exact congrArg (fun found : Option Value => Except.ok (found.getD .missing)) found
  | @entered key _ entries =>
    have found : Entries.find? key entries = some part := stored
    exact ⟨congrArg (fun found : Option Value => Except.ok (found.getD .missing)) found,
      (Wrote.entered replaces).to (congrArg dict (Entries.put_of_find? found))⟩
  | erased removed | nowhere removed | dropped removed | noEntry removed | appended removed => cases removed

/-- Behind so many items as its index says, a value is read, and removed from there. -/
private theorem between_items (before behind : List Value) (value : Value) :
    (position before.length).read {} 0 (.list (before ++ value :: behind)) = .ok value ∧
      (position before.length).write .remove (.list (before ++ value :: behind)) = .ok (.list (before ++ behind)) := by
  have inside : before.length < (before ++ value :: behind).length := by simp
  constructor
  · rw [read_position]
    simp only [items?, List.getElem?_append_right (Nat.le_refl _), Nat.sub_self]
    rfl
  · refine (write_eq_ok rfl).mpr ((Wrote.item inside).to ?_)
    rw [Edit.onItems, List.eraseIdx_append_of_length_le (Nat.le_refl _), Nat.sub_self, List.eraseIdx_cons_zero]

/-- What was added at an index is removed from there. -/
theorem inserted_is_removed {index : Nat} (own : holder.isOwn = true)
    (written : (position index).write (.add value) holder = .ok edited) :
    (∃ items, holder = .list items ∧ index < items.length) ∧ (position index).read {} 0 edited = .ok value ∧
      (position index).write .remove edited = .ok holder := by
  cases (write_eq_ok own).mp written with
  | @item _ items within =>
    have before := List.length_take_of_le (Nat.le_of_lt within)
    refine ⟨⟨items, rfl, within⟩, ?_⟩
    simpa only [Edit.onItems, before, List.take_append_drop] using between_items (items.take index) (items.drop index) value

/-- What was appended is removed from the index that was the length. -/
theorem appended_is_removed (items : List Value) (value : Value) :
    (position items.length).read {} 0 (.list (items ++ [value])) = .ok value ∧
      (position items.length).write .remove (.list (items ++ [value])) = .ok (.list items) := by
  simpa only [List.append_nil] using between_items items [] value

/-- What was put under a new key is removed from under it. -/
theorem entered_is_removed {key : String} (own : holder.isOwn = true)
    (absent : holder.entries?.bind (Entries.find? key) = none)
    (written : (entry key).write (.add value) holder = .ok edited) : (entry key).write .remove edited = .ok holder := by
  cases (write_eq_ok own).mp written with
  | entered same =>
    cases same
    exact (write_eq_ok rfl).mpr ((Wrote.dropped rfl).to (congrArg dict (Entries.erase_put_of_absent absent)))
  | dropped removed => cases removed

end Access

namespace Route
variable {registry : Registry} {memory : Memory} {way : List Access} {record place holder : Value}
  {store : Edit → Value → Option Value}

/-- A way that can be read to something that is set leads to a part of the record. -/
theorem Site.is_found (site : Site way record place store) (read : Route.read { registry, memory } way record = .ok holder)
    (isSet : holder.isUnset = false) :
    holder = place ∧ Along way record place ∧ store = fun _ later => some (rebuild way record later) := by
  cases site with
  | found along _ => exact ⟨Except.ok.inj (read.symm.trans (along.read registry memory)), along, rfl⟩
  | madeUp along own nothing =>
    cases read.symm.trans ((along.to_unset own nothing).read registry memory)
    cases isSet

end Route

namespace Pointer
variable {registry : Registry} {memory : Memory} {context : Context} {pointer other : Pointer} {change undoing : Edit}
  {last : Access} {record place edited after prior value : Value} {store : Edit → Value → Option Value}

/-- What is stored at the pointer in what its parent leads to. -/
def stored? (pointer : Pointer) (holder : Value) : Option Value :=
  match pointer with
  | root _ => none
  | property _ _ target _ => (accessOf {} target).stored? holder
  | element _ _ index => index.access.stored? holder

/-- The edits that undo one which was made through a pointer, and the pointers through which they are made. What was
appended is removed from the index that was the length of the array, and the rest is undone where it was done. -/
inductive Undoes (context : Context) (pointer : Pointer) (record prior : Value) : Edit → Pointer → Edit → Prop
  | inserted {value : Value} {position : Nat} : pointer.index? = some (.position position) →
      Undoes context pointer record prior (.add value) pointer .remove
  | appended {value : Value} {items : List Value} {token : String} : pointer.isDash = true →
      pointer.parent.get context record = .ok (.list items) →
      Undoes context pointer record prior (.add value) (.element pointer.parent token (.position items.length)) .remove
  | entered {value map : Value} {entries : Entries Value} {key : String} : pointer.index? = some (.key key) →
      pointer.parent.get context record = .ok map → map.entries? = some entries → Entries.find? key entries = none →
      Undoes context pointer record prior (.add value) pointer .remove
  | replaced {value holder part : Value} : pointer.parent.get context record = .ok holder →
      pointer.stored? holder = some part → pointer.misuse? {} (.replace prior) = none →
      Undoes context pointer record prior (.replace value) pointer (.replace prior)

/-- The edit gives the record back and answers with the value, whatever is registered and open by then. -/
def Restores (pointer : Pointer) (undoing : Edit) (after value record : Value) : Prop :=
  ∀ registry memory, pointer.edit { registry, memory } undoing after = (record, .ok value) ∧
    pointer.amend { registry, memory } undoing after = {}

/-- What was done at a place that is a part of the record can be undone there. -/
theorem restores_at (ends : pointer.EndsWith last) (along : Route.Along (pointer.parent.route {}) record place)
    (before : place.isHolder = true) (kept : edited.isHolder = true) (proper : pointer.misuse? {} undoing = none)
    (read : last.read {} 0 edited = .ok value) (written : last.write undoing edited = .ok place) :
    pointer.Restores undoing (Route.rebuild (pointer.parent.route {}) record edited) value record := by
  intro registry memory
  have again := (along.rebuilt before kept).1
  have site := Route.Site.found again fun _ => (set_of_holder kept).1
  have ownEdited := own_of_holder kept
  refine ⟨(edit_at ends site ownEdited proper).mpr ⟨read, place, written, ?_⟩, amend_at ends site ownEdited⟩
  rw [along.rebuild_rebuild before kept, along.rebuild_same fun _ => (set_of_holder before).1]

theorem EndsWith.stored (ends : pointer.EndsWith last) : pointer.stored? place = last.stored? place := by
  cases ends <;> rfl

/-- An edit that is undone was made at a place that is a part of the record, and there it is undone. -/
theorem Undoes.at_place (undoes : pointer.Undoes { registry, memory } record prior change other undoing)
    (ends : pointer.EndsWith last) (site : Route.Site (pointer.parent.route {}) record place store) (own : place.isOwn = true)
    (given : change.value? = some value) (read : last.read {} 0 place = .ok prior)
    (written : last.write change place = .ok edited) :
    pointer.parent.get { registry, memory } record = .ok place ∧
    other.parent = pointer.parent ∧ other.misuse? {} undoing = none ∧
    (∃ next, other.EndsWith next ∧ next.read {} 0 edited = .ok value ∧ next.write undoing edited = .ok place) ∧
    ∀ replacement, change = .replace replacement →
      pointer.misuse? {} (.replace prior) = none ∧ last.write (.replace prior) place = .ok place := by
  cases undoes with
  | inserted isPosition =>
    cases ends with
    | property => cases isPosition
    | element parent token index =>
      cases isPosition
      cases given
      obtain ⟨⟨items, isList, inside⟩, reads, removed⟩ := Access.inserted_is_removed own written
      refine ⟨?_, rfl, rfl, ⟨_, .element .., reads, removed⟩, nofun⟩
      rcases site.read_place registry memory with here | ⟨-, kind, empty⟩
      · exact mapError_eq_ok.mpr here
      · rw [isList] at empty
        cases kind <;> cases empty
        cases inside
  | @appended _ items token isDash got =>
    obtain ⟨rfl, -, -⟩ := site.is_found (mapError_eq_ok.mp got) rfl
    obtain rfl := ends.isDash_iff.mp isDash
    obtain ⟨_, _, isList, adds, rfl⟩ := Access.append_of_write own written
    cases isList
    cases adds
    cases given
    obtain ⟨reads, removed⟩ := Access.appended_is_removed items value
    exact ⟨got, rfl, rfl, ⟨_, .element .., reads, removed⟩, nofun⟩
  | @entered _ map entries key isKey got shape absent =>
    have isSet : map.isUnset = false := by cases map <;> first | rfl | cases shape
    obtain ⟨rfl, -, -⟩ := site.is_found (mapError_eq_ok.mp got) isSet
    cases ends with
    | property => cases isKey
    | element parent token index =>
      cases isKey
      have nothing : map.entries?.bind (Entries.find? key) = none := by rw [shape, Option.bind_some, absent]
      have removed := Access.entered_is_removed own nothing written
      exact ⟨got, rfl, rfl, ⟨_, .element .., Access.read_of_write own given nofun written, removed⟩, nofun⟩
  | @replaced _ holder part got stored proper =>
    rw [ends.stored] at stored
    obtain ⟨rfl, -, -⟩ := site.is_found (mapError_eq_ok.mp got) (Access.set_of_stored stored)
    obtain ⟨reads, same⟩ := Access.write_stored own stored written
    obtain rfl : part = prior := Except.ok.inj (reads.symm.trans read)
    have inside : last ≠ .afterLast := by
      rintro rfl
      cases stored
    obtain ⟨rewritten, again, once⟩ := Access.write_again own given inside written part
    obtain rfl : holder = rewritten := Except.ok.inj (same.symm.trans once)
    exact ⟨got, rfl, proper, ⟨last, ends, Access.read_of_write own given inside written, again⟩, fun _ _ => ⟨proper, same⟩⟩

/-- What was put into the record is what the undoing edit answers with, and the whole record is what it was. Nothing on
the way there may be made up anew each time that it is asked for. What can be replaced and put back can as well be replaced
by itself, which changes nothing. -/
theorem edits_can_be_undone (done : pointer.edit { registry, memory } change record = (after, .ok prior))
    (given : change.value? = some value)
    (own : ∀ met ∈ Route.trace { registry, memory } (pointer.parent.route {}) record, met.isOwn = true)
    (undoes : pointer.Undoes { registry, memory } record prior change other undoing) :
    pointer.amend { registry, memory } change record = {} ∧ other.Restores undoing after value record ∧
      (change = .replace value → pointer.Restores (.replace prior) record prior record) := by
  have proper := proper_of_edit done
  obtain ⟨last, ends⟩ := exists_endsWith (notRoot_of_proper proper)
  obtain ⟨place, store, edited, site, ownPlace, read, written, stored⟩ := site_of_edit ends done own
  obtain ⟨before, kept⟩ := Access.holder_of_write ownPlace written
  have isSet := (set_of_holder before).1
  obtain ⟨got, above, properUndoing, ⟨next, nextEnds, reads, restored⟩, itself⟩ :=
    undoes.at_place ends site ownPlace given read written
  have unamended : pointer.amend { registry, memory } change record = {} := amend_at ends site ownPlace
  obtain ⟨-, along, rfl⟩ := site.is_found (mapError_eq_ok.mp got) isSet
  obtain rfl := Option.some.inj stored
  refine ⟨unamended, ?_, fun replaces => ?_⟩
  · rw [← above] at along ⊢
    exact restores_at nextEnds along before kept properUndoing reads restored
  · obtain ⟨properAgain, same⟩ := itself value replaces
    have again := restores_at ends along before before properAgain read same
    rwa [along.rebuild_same fun _ => isSet] at again

/-- A tag is added in front of the one that an order has, and another one behind it, a second note is added to the first,
and the first one is replaced. Each time the order is what it was once that is undone. -/
theorem tags_and_notes_are_restored :
    let context : Context := { registry := Orders.registry }
    let record : Value := .dict [("tags", .list [.text "old"]), ("notes", .dict [("first", .text "told")])]
    let tag := fun token position => Pointer.element Orders.nextTag.parent token (.position position)
    ∃ inserted appended entered replaced,
      (∀ met ∈ Route.trace context (Orders.nextTag.parent.route {}) record, met.isOwn = true) ∧
      (∀ key, ∀ met ∈ Route.trace context ((Orders.note key).parent.route {}) record, met.isOwn = true) ∧
      (tag "0" 0).edit context (.add (.text "new")) record = (inserted, .ok (.text "old")) ∧
      (tag "0" 0).edit context .remove inserted = (record, .ok (.text "new")) ∧
      Orders.nextTag.edit context (.add (.text "new")) record = (appended, .ok .missing) ∧
      (tag "1" 1).edit context .remove appended = (record, .ok (.text "new")) ∧
      (Orders.note "second").edit context (.add (.text "new")) record = (entered, .ok .missing) ∧
      (Orders.note "second").edit context .remove entered = (record, .ok (.text "new")) ∧
      (Orders.note "first").edit context (.replace (.text "new")) record = (replaced, .ok (.text "told")) ∧
      (Orders.note "first").edit context (.replace (.text "told")) replaced = (record, .ok (.text "new")) ∧
      (Orders.note "first").edit context (.replace (.text "told")) record = (record, .ok (.text "told")) := by
  intro context record tag
  have ownTags : ∀ met ∈ Route.trace context (Orders.nextTag.parent.route {}) record, met.isOwn = true := by
    have met : Route.trace context (Orders.nextTag.parent.route {}) record = [record, .list [.text "old"]] := rfl
    simp [met, isOwn, record]
  have ownNotes (key : String) : ∀ met ∈ Route.trace context ((Orders.note key).parent.route {}) record, met.isOwn = true := by
    have met : Route.trace context ((Orders.note key).parent.route {}) record =
        [record, .dict [("first", .text "told")]] := rfl
    simp [met, isOwn, record]
  obtain ⟨inserted, inserts⟩ : ∃ inserted, (tag "0" 0).edit context (.add (.text "new")) record =
      (inserted, .ok (.text "old")) := ⟨_, rfl⟩
  obtain ⟨appended, appends⟩ : ∃ appended, Orders.nextTag.edit context (.add (.text "new")) record =
      (appended, .ok .missing) := ⟨_, rfl⟩
  obtain ⟨entered, enters⟩ : ∃ entered, (Orders.note "second").edit context (.add (.text "new")) record =
      (entered, .ok .missing) := ⟨_, rfl⟩
  obtain ⟨replaced, replaces⟩ : ∃ replaced, (Orders.note "first").edit context (.replace (.text "new")) record =
      (replaced, .ok (.text "told")) := ⟨_, rfl⟩
  obtain ⟨-, uninserts, -⟩ := edits_can_be_undone inserts rfl ownTags (.inserted rfl)
  obtain ⟨-, unappends, -⟩ := edits_can_be_undone appends rfl ownTags (.appended rfl rfl)
  obtain ⟨-, unenters, -⟩ := edits_can_be_undone enters rfl (ownNotes "second") (.entered rfl rfl rfl rfl)
  obtain ⟨-, unreplaces, itself⟩ := edits_can_be_undone replaces rfl (ownNotes "first") (.replaced rfl rfl rfl)
  exact ⟨inserted, appended, entered, replaced, ownTags, ownNotes, inserts, (uninserts ..).1, appends, (unappends ..).1,
    enters, (unenters ..).1, replaces, (unreplaces ..).1, (itself rfl ..).1⟩

/-- A pointer makes up its location anew whenever it is asked for it, so that the token which is added to one cannot be
removed from the next. -/
theorem tokens_of_a_pointer_are_not_restored :
    ∃ container pointer after fault,
      ({} : Context).root pointerHolder = .ok container ∧
      (parse {} container true (.text "/held/location/parts/-")).outcome = .ok pointer ∧
      pointer.isDash = true ∧
      let record : Value := .dict [("held", .pointer (.root container))]
      let first := element pointer.parent "0" (.position 0)
      pointer.parent.get {} record = .ok (.list []) ∧
      pointer.edit {} (.add (.text "new")) record = (after, .ok .missing) ∧
      first.edit {} .remove after = (after, .error (.data fault)) ∧
      first.edit {} .remove after ≠ (record, .ok (.text "new")) :=
  ⟨_, _, _, _, rfl, rfl, rfl, rfl, rfl, rfl, nofun⟩

end Pointer
end RecordAddress
