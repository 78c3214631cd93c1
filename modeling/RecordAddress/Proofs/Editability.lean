import RecordAddress.Proofs.Frame
import RecordAddress.Proofs.Safety
import RecordAddress.Proofs.Sites

/-! When an edit of a record of mere data succeeds: exactly if its pointer can be read and what it writes to can be
changed. All else is refused as a fault of the data. -/

namespace RecordAddress
open Value

namespace Value
variable {value : Value}

/-- Whether what has the shape can be changed. Tuples and views can be read only. -/
def isWritable : Shape → Value → Bool
  | .object, dict _ | .object, object _ | .array, list _ | .map, dict _ => true
  | _, _ => false

theorem own_of_data (data : value.throughout isData = true) : value.isOwn = true := by
  have check := check_of_throughout data
  cases value <;> first | rfl | cases check

end Value

def Collection.shape : Collection → Shape
  | array => .array
  | map => .map

namespace Pointer

/-- The shape of what the value of a pointer is stored in. -/
def holderShape : Pointer → Shape
  | root _ | property .. => .object
  | element _ _ index => index.kind.shape

/-- What the last step is taken from where the parent leads to the value: a collection that is unset is empty. -/
def filled (pointer : Pointer) (value : Value) : Value :=
  match pointer.index?, value with
  | some index, .null => Access.emptyOf index.kind
  | _, value => value

/-- What a record must have for an edit to succeed: the pointer can be read, and what its value is stored in can be
changed. Where that is a collection which is unset, what holds the collection can be changed. -/
structure Editable (context : Context) (change : Edit) (pointer : Pointer) (record : Value) : Prop where
  readable : ∃ value, pointer.get context record = .ok value
  writable : ∃ value, pointer.parent.get context record = .ok value ∧ (pointer.filled value).isWritable pointer.holderShape = true
  inside : ∀ position, pointer.index? = some (.position position) →
    ∃ value items, pointer.parent.get context record = .ok value ∧ (pointer.filled value).items? = some items ∧
      position < items.length
  storable : change ≠ .remove → pointer.isElement = true → pointer.parent.get context record = .ok .null →
    ∃ holder, pointer.parent.parent.get context record = .ok holder ∧ holder.isWritable .object = true

end Pointer

namespace Access
variable {context : Context} {access : Access} {change : Edit} {holder value part : Value}

/-- Something to go on from in data is data. -/
theorem Declared.data_of_read {depth : Nat} (declared : access.Declared) (inside : access ≠ .afterLast)
    (data : holder.throughout isData = true) (read : access.read context (depth + 1) holder = .ok part) :
    part.throughout isData = true := by
  have proper : Proper (fun value => 0 < depth + 1 → value.throughout isData = true) (access.read context (depth + 1) holder) :=
    declared.read_proper data fun _ => inside
  rw [read] at proper
  exact proper (Nat.succ_pos depth)

/-- Data take a property exactly if they are an object that can be changed. -/
theorem write_property_ok {target : Property} (data : holder.isData = true) :
    (∃ edited, (Pointer.accessOf {} target).write change holder = .ok edited) ↔ holder.isWritable .object = true := by
  have written : (Pointer.accessOf {} target).write change holder =
    writeProperty (.text target.name) (.text target.field.mappedKey) change.value? holder := rfl
  rw [written]
  cases holder with
  | dict | object => cases change <;> exact ⟨fun _ => rfl, fun _ => ⟨_, rfl⟩⟩
  | missing | location | pointer | description => cases data
  | _ => exact ⟨nofun, nofun⟩

theorem write_position_ok {index : Nat} :
    (∃ edited, (position index).write change holder = .ok edited) ↔
      holder.isWritable .array = true ∧ ∃ items, holder.items? = some items ∧ index < items.length := by
  cases holder with
  | list items =>
    rw [write_list]
    by_cases beyond : items.length ≤ index
    · rw [if_pos beyond]
      exact ⟨nofun, fun ⟨_, _, same, inside⟩ => by cases same; omega⟩
    · rw [if_neg beyond]
      exact ⟨fun _ => ⟨rfl, items, rfl, by omega⟩, fun _ => ⟨_, rfl⟩⟩
  | _ => exact ⟨nofun, fun impossible => nomatch impossible.1⟩

theorem write_afterLast_ok :
    (∃ edited, afterLast.write (.add value) holder = .ok edited) ↔ holder.isWritable .array = true := by
  cases holder with
  | list => exact ⟨fun _ => rfl, fun _ => ⟨_, rfl⟩⟩
  | _ => exact ⟨nofun, nofun⟩

theorem write_entry_ok {key : String} :
    (∃ edited, (entry key).write change holder = .ok edited) ↔ holder.isWritable .map = true := by
  cases holder with
  | dict => cases change <;> exact ⟨fun _ => rfl, fun _ => ⟨_, rfl⟩⟩
  | _ => exact ⟨nofun, nofun⟩

end Access

namespace Route
variable {registry : Registry} {memory : Memory} {last : Access} {way : List Access} {record place value : Value}

/-- All that is met in data on the way to something that can be read is a part of them. -/
theorem own_on_way (declared : ∀ access ∈ way, access.Declared ∧ access ≠ .afterLast)
    (data : record.throughout isData = true) (got : read { registry, memory } (way ++ [last]) record = .ok value) :
    ∀ met ∈ trace { registry, memory } way record, met.isOwn = true := by
  induction way generalizing record with
  | nil => simpa [trace] using own_of_data data
  | cons access way ih =>
    obtain ⟨⟨declared, inside⟩, below⟩ := List.forall_mem_cons.mp declared
    simp only [List.cons_append, read, bind_eq_ok, mapError_eq_ok, List.length_append, List.length_singleton] at got
    obtain ⟨part, reached, got⟩ := got
    rcases Access.read_below reached with ⟨isSet, -⟩ | ⟨-, empty, name, mappedKey, kind, rfl, isUnset, -⟩
    · rw [trace, Access.read_at_every_depth isSet reached]
      exact List.forall_mem_cons.mpr ⟨own_of_data data, ih below (declared.data_of_read inside data reached) got⟩
    · obtain rfl := List.eq_nil_of_length_eq_zero empty
      have null : (Access.property name mappedKey (some kind)).read { registry, memory } 0 record = .ok .null := by
        simp only [Access.read, isUnset]
        rfl
      have ownNull : Value.null.isOwn = true := rfl
      simp [trace, null, own_of_data data, ownNull]

theorem Along.data_at_end (along : Along way record place) (declared : ∀ access ∈ way, access.Declared ∧ access ≠ .afterLast)
    (data : record.throughout isData = true) : place.throughout isData = true := by
  induction along with
  | here => exact data
  | step own finds _ ih =>
    obtain ⟨⟨first, inside⟩, below⟩ := List.forall_mem_cons.mp declared
    exact ih below (first.data_of_read inside data (finds 1))
  | unset => rfl

end Route

namespace Pointer
variable {registry : Registry} {memory : Memory} {container : Container} {pointer : Pointer} {change : Edit} {last : Access}
  {record place value : Value} {store : Edit → Value → Option Value}

private theorem Reached.declared_above (reached : Reached container pointer) (ends : pointer.EndsWith last) :
    ∀ access ∈ pointer.parent.route {}, access.Declared ∧ access ≠ .afterLast := by
  have declared := reached.declared
  have above : (pointer.route {}).dropLast = pointer.parent.route {} := by rw [ends.route, List.dropLast_concat]
  intro access within
  rw [← above] at within
  exact ⟨declared.declared access (List.dropLast_subset _ within), declared.dash_last access within⟩

private theorem filled_of_set (isSet : value.isUnset = false) : pointer.filled value = value := by
  unfold filled
  split
  · cases isSet
  · rfl

/-- The root is no collection, so that what its last step is taken from is set. -/
private theorem place_is_set (reached : Reached container pointer) (ends : pointer.EndsWith last)
    (isSet : pointer.parent.route {} ≠ [] → place.isUnset = false) (read : last.read {} 0 place = .ok value) :
    place.isUnset = false := by
  cases ends with
  | property parent token target children => cases place <;> first | rfl | cases read
  | element parent token index =>
    obtain ⟨above, outer, target, children, rfl, -⟩ := reached.below_collection
    exact isSet (List.append_ne_nil_of_right_ne_nil _ (List.cons_ne_nil _ _))

/-- A collection that was made up is stored exactly if its holder can be changed, and where nothing was given for it it
need not be. -/
private theorem stored_in_data {above : List Access} {holder later : Value} {target : Property} {name mappedKey : Label}
    {kind : Collection} (data : holder.isData = true) (same : accessOf {} target = .property name mappedKey (some kind)) :
    (∃ after, Route.storeMadeUp above record holder name mappedKey kind change later = some after) ↔
      (change ≠ .remove → holder.isWritable .object = true) := by
  have written : (∃ edited, (accessOf {} target).write (.replace later) holder = .ok edited) ↔
      holder.isWritable .object = true := Access.write_property_ok data
  rw [same] at written
  simp only [Route.storeMadeUp_eq_some]
  constructor
  · rintro ⟨after, ⟨removes, -⟩ | ⟨-, stored, wrote, -⟩⟩ gives
    · exact absurd removes gives
    · exact written.mp ⟨stored, wrote⟩
  · intro writable
    by_cases removes : change = .remove
    · exact ⟨record, .inl ⟨removes, rfl⟩⟩
    · obtain ⟨stored, wrote⟩ := written.mpr (writable removes)
      exact ⟨_, .inr ⟨removes, stored, wrote, rfl⟩⟩

/-- The site of a last step in data: what is there is what the parent leads to, or empty, and what becomes of it can be
stored unless it was made up below something that cannot be changed. -/
private theorem place_in_data (reached : Reached container pointer) (ends : pointer.EndsWith last)
    (data : record.throughout isData = true) (site : Route.Site (pointer.parent.route {}) record place store)
    (read : last.read {} 0 place = .ok value) :
    place.throughout isData = true ∧
    (∃ value, pointer.parent.get { registry, memory } record = .ok value ∧ pointer.filled value = place) ∧
    ∀ change later, (∃ after, store change later = some after) ↔
      (change ≠ .remove → pointer.isElement = true → pointer.parent.get { registry, memory } record = .ok .null →
        ∃ holder, pointer.parent.parent.get { registry, memory } record = .ok holder ∧ holder.isWritable .object = true) := by
  have declared := reached.declared_above ends
  generalize way : pointer.parent.route {} = above at site declared
  cases site with
  | found along isSet =>
    have got : pointer.parent.get { registry, memory } record = .ok place := by
      rw [get, mapError_eq_ok, way]
      exact along.read registry memory
    have isSet := place_is_set reached ends (way ▸ isSet) read
    refine ⟨along.data_at_end declared data, ⟨place, got, filled_of_set isSet⟩, fun change later => ⟨?_, fun _ => ⟨_, rfl⟩⟩⟩
    rintro - - - nothing
    rw [got] at nothing
    cases nothing
    cases isSet
  | @madeUp above _ holder name mappedKey kind along ownHolder nothing =>
    cases ends with
    | property parent token target children =>
      have last : Access.property name mappedKey (some kind) ∈ (parent.route {}).getLast? := by
        have way : parent.route {} = _ := way
        rw [way, List.getLast?_concat]
        rfl
      cases no_collection_above reached _ last
    | element parent token index =>
      obtain ⟨grandparent, outer, target, children, rfl, isKind⟩ := reached.below_collection
      obtain ⟨rfl, same⟩ := List.append_inj' way rfl
      have same : accessOf {} target = .property name mappedKey (some kind) := List.head_eq_of_cons_eq same
      have kinds : (accessOf {} target).collection? = some index.kind := by
        rw [accessOf, Access.collection?, Amendments.collection?_unchanged, isKind]
      obtain rfl : kind = index.kind := by
        rw [same] at kinds
        exact Option.some.inj kinds
      have isUnset : (property grandparent outer target children).get { registry, memory } record = .ok .null := by
        have way : (property grandparent outer target children).route {} = _ := way
        rw [get, mapError_eq_ok, way]
        exact (along.to_unset ownHolder nothing).read registry memory
      have above : grandparent.get { registry, memory } record = .ok holder := mapError_eq_ok.mpr (along.read registry memory)
      have holderData := along.data_at_end (List.forall_mem_append.mp declared).1 data
      refine ⟨Access.emptyOf_is_data _, ⟨.null, isUnset, rfl⟩, fun change later => ?_⟩
      rw [stored_in_data (check_of_throughout holderData) same]
      constructor
      · rintro writable gives - -
        exact ⟨holder, above, writable gives⟩
      · intro storable gives
        obtain ⟨other, got, writable⟩ := storable gives rfl isUnset
        obtain rfl : other = holder := Except.ok.inj (got.symm.trans above)
        exact writable

/-- The last step of an edit of data is taken exactly if what it writes to can be changed, and has an element at the
index. -/
private theorem slot_writable (ends : pointer.EndsWith last) (proper : pointer.misuse? {} change = none)
    (data : place.isData = true) :
    (∃ edited, last.write change place = .ok edited) ↔
      place.isWritable pointer.holderShape = true ∧
      ∀ position, pointer.index? = some (.position position) → ∃ items, place.items? = some items ∧ position < items.length := by
  cases ends with
  | property parent token target children =>
    rw [Access.write_property_ok data]
    refine ⟨fun writable => ⟨writable, fun position same => ?_⟩, And.left⟩
    cases same
  | element parent token index =>
    cases index with
    | position index =>
      rw [ElementIndex.access, Access.write_position_ok]
      refine and_congr_right fun _ => ⟨fun inside position same => ?_, fun inside => inside index rfl⟩
      cases same
      exact inside
    | afterLast =>
      obtain ⟨value, rfl⟩ := adds_after_last proper
      rw [ElementIndex.access, Access.write_afterLast_ok]
      refine ⟨fun writable => ⟨writable, fun position same => ?_⟩, And.left⟩
      cases same
    | key key =>
      rw [ElementIndex.access, Access.write_entry_ok]
      refine ⟨fun writable => ⟨writable, fun position same => ?_⟩, And.left⟩
      cases same

private theorem fault_in_data {fault : AccessFault} (reached : Reached container pointer)
    (data : record.throughout isData = true) (proper : pointer.misuse? {} change = none)
    (failed : (pointer.edit { registry, memory } change record).2 = .error fault) : ∃ inData, fault = .data inData := by
  simp only [edit, proper] at failed
  cases way : pointer.route {} with
  | nil => simp only [way, reduceCtorEq] at failed
  | cons access rest =>
    simp only [way] at failed
    obtain ⟨⟨depth, obstacle⟩, refused, rfl⟩ := mapError_eq_error.mp failed
    obtain ⟨mismatch, rfl⟩ := Route.edit_fails_in_data (way ▸ reached.declared) data refused
    exact ⟨_, rfl⟩

/-- What can be read has a site, at which reading and editing are told. -/
private theorem site_in_data (reached : Reached container pointer) (ends : pointer.EndsWith last)
    (data : record.throughout isData = true) (got : pointer.get { registry, memory } record = .ok value) :
    ∃ place store, Route.Site (pointer.parent.route {}) record place store ∧ last.read {} 0 place = .ok value := by
  have read := mapError_eq_ok.mp got
  rw [ends.route] at read
  obtain ⟨place, store, site, -, read⟩ := site_of_get ends got (Route.own_on_way (reached.declared_above ends) data read)
  exact ⟨place, store, site, read⟩

private theorem editable_of_edit {after prior : Value} (reached : Reached container pointer) (data : record.throughout isData = true)
    (done : pointer.edit { registry, memory } change record = (after, .ok prior)) :
    Editable { registry, memory } change pointer record := by
  have proper := proper_of_edit done
  obtain ⟨last, ends⟩ := exists_endsWith (notRoot_of_proper proper)
  obtain ⟨place, store, site, read⟩ := site_in_data reached ends data (get_of_edit done)
  obtain ⟨placeData, ⟨value, got, rfl⟩, stores⟩ := place_in_data reached ends data site read
  obtain ⟨-, edited, written, stored⟩ := (edit_at ends site (own_of_data placeData) proper).mp done
  obtain ⟨writable, inside⟩ := (slot_writable ends proper (check_of_throughout placeData)).mp ⟨edited, written⟩
  exact {
    readable := ⟨prior, get_of_edit done⟩
    writable := ⟨value, got, writable⟩
    inside := fun position isPosition => by
      obtain ⟨items, shape, within⟩ := inside position isPosition
      exact ⟨value, items, got, shape, within⟩
    storable := (stores change edited).mp ⟨_, stored⟩ }

private theorem edit_of_editable (reached : Reached container pointer) (data : record.throughout isData = true)
    (proper : pointer.misuse? {} change = none) (editable : Editable { registry, memory } change pointer record) :
    ∃ after prior, pointer.edit { registry, memory } change record = (after, .ok prior) := by
  obtain ⟨last, ends⟩ := exists_endsWith (notRoot_of_proper proper)
  obtain ⟨prior, readable⟩ := editable.readable
  obtain ⟨place, store, site, read⟩ := site_in_data reached ends data readable
  obtain ⟨placeData, ⟨value, got, rfl⟩, stores⟩ := place_in_data reached ends data site read
  -- the parent leads to one value, of which all the conditions speak
  have same {other : Value} (otherGot : pointer.parent.get { registry, memory } record = .ok other) : other = value :=
    Except.ok.inj (otherGot.symm.trans got)
  obtain ⟨shown, shownGot, writable⟩ := editable.writable
  rw [same shownGot] at writable
  have inside : ∀ position, pointer.index? = some (.position position) →
      ∃ items, (pointer.filled value).items? = some items ∧ position < items.length := by
    intro position isPosition
    obtain ⟨other, items, otherGot, shape, within⟩ := editable.inside position isPosition
    rw [same otherGot] at shape
    exact ⟨items, shape, within⟩
  obtain ⟨edited, written⟩ := (slot_writable ends proper (check_of_throughout placeData)).mpr ⟨writable, inside⟩
  obtain ⟨after, stored⟩ := (stores change edited).mpr editable.storable
  exact ⟨after, prior, (edit_at ends site (own_of_data placeData) proper).mpr ⟨read, edited, written, stored⟩⟩

/-- An edit of a record of mere data that is no misuse succeeds exactly if its pointer can be read, what it writes to can
be changed, an index is inside of its array, and what an unset collection is to be stored in can be changed. Otherwise it
is refused as a fault of the data. -/
theorem edit_succeeds_iff_editable (registry : Registry) (memory : Memory) (reached : Reached container pointer)
    (data : record.throughout isData = true) (proper : pointer.misuse? {} change = none) :
    ((∃ prior, (pointer.edit { registry, memory } change record).2 = .ok prior) ↔
      Editable { registry, memory } change pointer record) ∧
    (¬ Editable { registry, memory } change pointer record →
      ∃ fault, (pointer.edit { registry, memory } change record).2 = .error (.data fault)) := by
  have succeeds : (∃ prior, (pointer.edit { registry, memory } change record).2 = .ok prior) ↔
      Editable { registry, memory } change pointer record := by
    constructor
    · rintro ⟨prior, done⟩
      exact editable_of_edit reached data (Prod.ext rfl done)
    · intro editable
      obtain ⟨after, prior, done⟩ := edit_of_editable reached data proper editable
      exact ⟨prior, congrArg Prod.snd done⟩
  refine ⟨succeeds, fun notEditable => ?_⟩
  cases outcome : (pointer.edit { registry, memory } change record).2 with
  | ok prior => exact absurd (succeeds.mp ⟨prior, outcome⟩) notEditable
  | error fault =>
    obtain ⟨inData, rfl⟩ := fault_in_data reached data proper outcome
    exact ⟨inData, rfl⟩

/-- From an order that is a view and has no notes one can be removed, as there is nothing to be changed, but none can be
added. -/
theorem view_takes_no_note :
    let context : Context := { registry := Orders.registry }
    let note := Orders.note "first"
    let record : Value := .view []
    Reached Orders.container note ∧ record.throughout isData = true ∧
    note.misuse? {} .remove = none ∧ note.misuse? {} (.add (.text "new")) = none ∧
    Editable context .remove note record ∧ ¬ Editable context (.add (.text "new")) note record ∧
    (∃ prior, (note.edit context .remove record).2 = .ok prior) ∧
    ∃ fault, (note.edit context (.add (.text "new")) record).2 = .error (.data fault) := by
  intro context note record
  have reached := note_reached "first"
  have data : record.throughout isData = true := rfl
  have removes : note.misuse? {} .remove = none := rfl
  have adds : note.misuse? {} (.add (.text "new")) = none := rfl
  have editable : Editable context .remove note record := {
    readable := ⟨.missing, rfl⟩
    writable := ⟨.null, rfl, rfl⟩
    inside := nofun
    storable := fun given => absurd rfl given }
  have refused : ¬ Editable context (.add (.text "new")) note record := by
    intro editable
    obtain ⟨holder, got, writable⟩ := editable.storable nofun rfl rfl
    cases got
    cases writable
  exact ⟨reached, data, removes, adds, editable, refused,
    (edit_succeeds_iff_editable context.registry context.memory reached data removes).1.mpr editable,
    (edit_succeeds_iff_editable context.registry context.memory reached data adds).2 refused⟩

end Pointer
end RecordAddress
