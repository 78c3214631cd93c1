import RecordAddress.Proofs.ArrayRuns
import RecordAddress.Proofs.Sites

/-! What a removal leaves. Properties and map entries are gone, and removing them once more changes nothing, while the
elements behind one that was removed from an array move up. -/

namespace RecordAddress
open Value

namespace Access
variable {access : Access} {holder edited mark : Value} {name mappedKey : Label} {collection : Option Collection}

/-- What is read of a slot that is empty. Arrays have no empty slots, as their elements move up. -/
def vacancy? : Access → Option Value
  | property .. => some .null
  | entry _ | noEntry => some .missing
  | position _ | afterLast => none

/-- Mappings forget a property that is removed, and other holders keep it as null. -/
private theorem property_of_remove (own : holder.isOwn = true)
    (removed : (property name mappedKey collection).write .remove holder = .ok edited) :
    (property name mappedKey collection).read {} 0 edited = .ok .null ∧
      (property name mappedKey collection).write .remove edited = .ok edited := by
  cases (write_eq_ok own).mp removed with
  | put same => cases same
  | @erased name _ _ entries =>
    have absent : Entries.find? name (Entries.erase name entries) = none := by rw [Entries.find?_erase, if_pos rfl]
    constructor
    · exact congrArg (fun found : Option Value => Except.ok (found.getD .null)) absent
    · exact (write_eq_ok rfl).mpr ((Wrote.erased rfl).to (congrArg dict (Entries.erase_of_find? absent)))
  | nowhere => exact ⟨rfl, (write_eq_ok rfl).mpr (.nowhere rfl)⟩
  | @set _ key _ attributes =>
    constructor
    · exact congrArg Except.ok (find?_put_getD key .null attributes)
    · exact (write_eq_ok rfl).mpr (Wrote.set.to (congrArg object (Entries.put_put key .null .null attributes)))
  | tokens => exact ⟨rfl, (write_eq_ok rfl).mpr .tokens⟩
  | @further _ key _ tokens attributes path parts =>
    constructor
    · exact bind_eq_ok.mpr ⟨.null, attempt_eq_ok.mpr (attributeAt_put path parts .null), rfl⟩
    · have same := congrArg (location tokens) (Entries.put_put key .null .null attributes)
      exact (write_eq_ok rfl).mpr ((Wrote.further path parts).to same)

/-- A slot that was emptied reads as empty, and is left alone when it is emptied again. -/
theorem vacant_of_remove (own : holder.isOwn = true) (vacates : access.vacancy? = some mark)
    (removed : access.write .remove holder = .ok edited) :
    access.read {} 0 edited = .ok mark ∧ access.write .remove edited = .ok edited := by
  cases access with
  | property name mappedKey collection =>
    cases vacates
    exact property_of_remove own removed
  | position | afterLast => cases vacates
  | entry key =>
    cases vacates
    cases (write_eq_ok own).mp removed with
    | entered same => cases same
    | @dropped _ entries =>
      have absent : Entries.find? key (Entries.erase key entries) = none := by rw [Entries.find?_erase, if_pos rfl]
      constructor
      · exact congrArg (fun found : Option Value => needElement 0 (found.getD .missing)) absent
      · exact (write_eq_ok rfl).mpr ((Wrote.dropped rfl).to (congrArg dict (Entries.erase_of_find? absent)))
  | noEntry =>
    cases vacates
    cases (write_eq_ok own).mp removed with
    | noEntry => exact ⟨rfl, (write_eq_ok rfl).mpr (.noEntry rfl)⟩

theorem drop_of_remove {index : Nat} (own : holder.isOwn = true)
    (removed : (position index).write .remove holder = .ok edited) :
    ∃ items, holder = .list items ∧ index < items.length ∧ edited = .list (items.eraseIdx index) := by
  cases (write_eq_ok own).mp removed with
  | item inside => exact ⟨_, rfl, inside, rfl⟩

private theorem remove_from_empty {kind : Collection} (removed : access.write .remove (emptyOf kind) = .ok edited) :
    edited = emptyOf kind := by
  have own : (emptyOf kind).isOwn = true := by cases kind <;> rfl
  have wrote := (write_eq_ok own).mp removed
  cases kind with
  | array =>
    cases wrote with
    | item inside => cases inside
    | appended added => cases added
  | map =>
    cases wrote with
    | put same | entered same => cases same
    | erased | nowhere | dropped | noEntry => rfl

end Access

namespace Route
variable {context : Context} {access last : Access} {rest way above : List Access} {record place after later : Value}
  {store : Edit → Value → Option Value}

/-- A removal leaves a site with what is left of its place, and as a removal that finds nothing there leaves it. -/
theorem Site.after_removal (site : Site way record place store) (own : place.isOwn = true)
    (removed : last.write .remove place = .ok later) (stored : store .remove later = some after) :
    ∃ again, Site way after later again ∧ again .remove later = some after := by
  cases site with
  | found along isSet =>
    obtain rfl := Option.some.inj stored
    obtain ⟨before, kept⟩ := Access.holder_of_write own removed
    obtain ⟨along, -, -⟩ := along.rebuilt before kept
    have isSet : way ≠ [] → later.isUnset = false := fun _ => (set_of_holder kept).1
    exact ⟨_, .found along isSet, congrArg some (along.rebuild_same isSet)⟩
  | madeUp along ownHolder nothing =>
    obtain rfl := Access.remove_from_empty removed
    cases stored
    exact ⟨_, .madeUp along ownHolder nothing, rfl⟩

/-- Nothing is removed from a map that is unset, whatever is above it. -/
theorem remove_from_unset {name mappedKey : Label} {key : String}
    (got : read context (above ++ [.property name mappedKey (some .map)]) record = .ok .null)
    (single : ∀ last ∈ above.getLast?, last.collection? = none)
    (whole : above ++ [.property name mappedKey (some .map), .entry key] = access :: rest) :
    edit context .remove access rest record = (record, .ok .missing) := by
  induction above generalizing access rest record with
  | nil =>
    cases whole
    simp only [List.nil_append, read, bind_eq_ok, mapError_eq_ok, Access.read, List.length_nil] at got
    obtain ⟨_, ⟨_, isUnset, same⟩, null⟩ := got
    cases same
    cases null
    have madeUp : (Access.property name mappedKey (some .map)).read context 1 record = .ok (.dict []) := by
      simp only [Access.read, isUnset]
      rfl
    refine (edit_of_unset madeUp ?_).mpr ⟨rfl, .inl ⟨rfl, rfl⟩⟩
    simp only [Access.isUnsetIn, isUnset]
    rfl
  | cons first above ih =>
    obtain ⟨next, further, goesOn⟩ := exists_first above (.property name mappedKey (some .map)) [.entry key]
    obtain ⟨rfl, rfl⟩ := List.cons.inj ((congrArg (_ :: ·) goesOn).symm.trans whole)
    simp only [List.cons_append, read, bind_eq_ok, mapError_eq_ok, List.length_append, List.length_singleton] at got
    obtain ⟨part, reached, got⟩ := got
    have isSet := set_above single reached
    rw [edit_of_set (Access.read_at_every_depth isSet reached _) isSet, ih got (single_below single) goesOn]
    simp only [Access.absorb_of_read isSet reached]

end Route

namespace Pointer
variable {registry : Registry} {memory : Memory} {container : Container} {pointer : Pointer} {record after prior mark : Value}

/-- What is read through a pointer once nothing is left there. -/
def vacancy? : Pointer → Option Value
  | root _ | element _ _ (.position _) | element _ _ .afterLast => none
  | property .. => some .null
  | element _ _ (.key _) => some .missing

private theorem EndsWith.vacancy? {last : Access} (ends : pointer.EndsWith last) : last.vacancy? = pointer.vacancy? := by
  cases ends with
  | property => rfl
  | element parent token index => cases index <;> rfl

private theorem vacant_after_removal (vacates : pointer.vacancy? = some mark)
    (own : ∀ met ∈ Route.trace { registry, memory } (pointer.parent.route {}) record, met.isOwn = true)
    (done : pointer.edit { registry, memory } .remove record = (after, .ok prior)) (present : Registry) (later : Memory) :
    pointer.get { registry := present, memory := later } after = .ok mark ∧
      pointer.edit { registry := present, memory := later } .remove after = (after, .ok mark) := by
  have proper := proper_of_edit done
  obtain ⟨last, ends⟩ := exists_endsWith (notRoot_of_proper proper)
  obtain ⟨place, store, edited, site, ownPlace, -, removed, stored⟩ := site_of_edit ends done own
  obtain ⟨vacant, again⟩ := Access.vacant_of_remove ownPlace (ends.vacancy?.trans vacates) removed
  obtain ⟨storeAgain, siteAfter, same⟩ := site.after_removal ownPlace removed stored
  have ownEdited := own_of_holder (Access.holder_of_write ownPlace removed).2
  exact ⟨(get_at ends siteAfter ownEdited).mpr vacant, (edit_at ends siteAfter ownEdited proper).mpr ⟨vacant, _, again, same⟩⟩

private theorem element_of_index? {index : ElementIndex} (isIndex : pointer.index? = some index) :
    ∃ parent token, pointer = .element parent token index := by
  cases pointer with
  | root | property => cases isIndex
  | element parent token other =>
    cases isIndex
    exact ⟨parent, token, rfl⟩

private theorem elements_after_removal {position : Nat} (isPosition : pointer.index? = some (.position position))
    (own : ∀ met ∈ Route.trace { registry, memory } (pointer.parent.route {}) record, met.isOwn = true)
    (done : pointer.edit { registry, memory } .remove record = (after, .ok prior)) :
    ∃ items, pointer.parent.get { registry, memory } record = .ok (.list items) ∧ position < items.length ∧
      ∀ token index,
        (element pointer.parent token (.position index)).get { registry, memory } record = .ok (items[index]?.getD .missing) ∧
        ∀ present later, (element pointer.parent token (.position index)).get { registry := present, memory := later } after =
          .ok ((items.eraseIdx position)[index]?.getD .missing) := by
  obtain ⟨parent, last, rfl⟩ := element_of_index? isPosition
  have ends : EndsWith _ _ := .element parent last (.position position)
  obtain ⟨place, store, edited, site, ownPlace, -, removed, stored⟩ := site_of_edit ends done own
  obtain ⟨storeAfter, siteAfter, -⟩ := site.after_removal ownPlace removed stored
  obtain ⟨items, rfl, inside, rfl⟩ := Access.drop_of_remove ownPlace removed
  have array : parent.get { registry, memory } record = .ok (.list items) := by
    rcases site.read_place registry memory with here | ⟨-, kind, empty⟩
    · exact mapError_eq_ok.mpr here
    · cases kind <;> cases empty
      cases inside
  exact ⟨items, array, inside, fun token index =>
    ⟨position_at site token index, fun present later => position_at siteAfter token index⟩⟩

private theorem removal_from_unset {key : String} (reached : Reached container pointer)
    (isKey : pointer.index? = some (.key key)) (isUnset : pointer.parent.get { registry, memory } record = .ok .null) :
    pointer.edit { registry, memory } .remove record = (record, .ok .missing) := by
  obtain ⟨parent, token, rfl⟩ := element_of_index? isKey
  obtain ⟨above, outer, target, children, rfl, kind⟩ := reached.below_collection
  have proper : (element (.property above outer target children) token (.key key)).misuse? {} .remove = none := rfl
  have isMap : accessOf {} target = .property (.text target.name) (.text target.field.mappedKey) (some .map) := by
    rw [accessOf, Amendments.collection?_unchanged, kind]
    rfl
  have way : (element (.property above outer target children) token (.key key)).route {} =
      above.route {} ++ [accessOf {} target, .entry key] := by
    rw [route_of_element, route, List.append_assoc]
    rfl
  obtain ⟨access, rest, whole⟩ := Route.exists_first (above.route {}) (accessOf {} target) [.entry key]
  refine (edit_eq_ok proper (way.trans whole)).mpr ?_
  have got := mapError_eq_ok.mp isUnset
  have single := no_collection_above reached.above
  rw [isMap] at whole
  rw [Pointer.parent, route, isMap] at got
  exact Route.remove_from_unset got single whole

/-- A removal leaves nothing behind: a property reads as null from then on, a map entry is not there, and to remove them
again changes nothing. In an array the elements behind the one that was removed move up by one. Nothing on the way there
may be made up anew each time that it is asked for. From a map that is unset nothing is removed, wherever it is. -/
theorem removed_value_is_gone (reached : Reached container pointer) :
    (∀ after prior, (∀ met ∈ Route.trace { registry, memory } (pointer.parent.route {}) record, met.isOwn = true) →
      pointer.edit { registry, memory } .remove record = (after, .ok prior) →
      pointer.amend { registry, memory } .remove record = {} ∧
      (∀ mark, pointer.vacancy? = some mark → ∀ present later,
        pointer.get { registry := present, memory := later } after = .ok mark ∧
        pointer.edit { registry := present, memory := later } .remove after = (after, .ok mark)) ∧
      ∀ position, pointer.index? = some (.position position) →
        ∃ items, pointer.parent.get { registry, memory } record = .ok (.list items) ∧ position < items.length ∧
        ∀ present later token other, let element := fun token index => Pointer.element pointer.parent token (.position index)
          (∀ before < position, (element token before).get { registry := present, memory := later } after =
            (element token before).get { registry, memory } record) ∧
          ∀ behind ≥ position,
            (element token behind).get { registry := present, memory := later } after =
              (element other (behind + 1)).get { registry, memory } record ∧
            (items.length ≤ behind + 1 →
              (element token behind).get { registry := present, memory := later } after = .ok .missing)) ∧
    ∀ key, pointer.index? = some (.key key) → pointer.parent.get { registry, memory } record = .ok .null →
      pointer.edit { registry, memory } .remove record = (record, .ok .missing) := by
  refine ⟨fun after prior own done => ⟨?_, ?_, ?_⟩, fun key => removal_from_unset reached⟩
  · obtain ⟨last, ends⟩ := exists_endsWith (notRoot_of_proper (proper_of_edit done))
    obtain ⟨place, store, site, ownPlace, -⟩ := site_of_get ends (get_of_edit done) own
    exact amend_at ends site ownPlace
  · exact fun mark vacates => vacant_after_removal vacates own done
  · intro position isPosition
    obtain ⟨items, array, inside, reads⟩ := elements_after_removal isPosition own done
    refine ⟨items, array, inside, fun present later token other => ⟨?_, ?_⟩⟩
    · intro before first
      rw [(reads token before).1, (reads token before).2, List.getElem?_eraseIdx, if_pos first]
    · intro behind later
      rw [(reads token behind).2, (reads other (behind + 1)).1, List.getElem?_eraseIdx, if_neg (Nat.not_lt_of_le later)]
      exact ⟨rfl, fun beyond => by rw [List.getElem?_eq_none beyond]; rfl⟩

/-- When the first of two tags is removed, the second one is the first. A note is removed once, and not at all from an
order without notes. -/
theorem tag_and_note_are_removed :
    let context : Context := { registry := Orders.registry }
    let record : Value := .dict [("tags", .list [.text "old", .text "new"]), ("notes", .dict [("first", .text "told")])]
    let note := Orders.note "first"
    ∃ tag withoutTag withoutNote,
      (parse context Orders.container true (.text "/tags/0")).outcome = .ok tag ∧
      Reached Orders.container tag ∧ Reached Orders.container note ∧
      (∀ met ∈ Route.trace context (tag.parent.route {}) record, met.isOwn = true) ∧
      (∀ met ∈ Route.trace context (note.parent.route {}) record, met.isOwn = true) ∧
      tag.edit context .remove record = (withoutTag, .ok (.text "old")) ∧
      tag.index? = some (.position 0) ∧ tag.get context withoutTag = .ok (.text "new") ∧
      note.edit context .remove record = (withoutNote, .ok (.text "told")) ∧
      note.vacancy? = some .missing ∧ note.edit context .remove withoutNote = (withoutNote, .ok .missing) ∧
      note.parent.get context (.dict []) = .ok .null ∧
      note.edit context .remove (.dict []) = (.dict [], .ok .missing) := by
  intro context record note
  have parsed : ∃ tag withoutTag, (parse context Orders.container true (.text "/tags/0")).outcome = .ok tag ∧
      tag.edit context .remove record = (withoutTag, .ok (.text "old")) ∧
      Route.trace context (tag.parent.route {}) record = [record, .list [.text "old", .text "new"]] ∧
      tag = .element tag.parent "0" (.position 0) ∧
      (Pointer.element tag.parent "1" (.position 1)).get context record = .ok (.text "new") := ⟨_, _, rfl, rfl, rfl, rfl, rfl⟩
  obtain ⟨tag, withoutTag, parsed, tagRemoved, tagTrace, isElement, second⟩ := parsed
  obtain ⟨withoutNote, noteRemoved⟩ : ∃ withoutNote, note.edit context .remove record = (withoutNote, .ok (.text "told")) :=
    ⟨_, rfl⟩
  have noteTrace : Route.trace context (note.parent.route {}) record = [record, .dict [("first", .text "told")]] := rfl
  have ownTag : ∀ met ∈ Route.trace context (tag.parent.route {}) record, met.isOwn = true := by
    simp [tagTrace, isOwn, record]
  have ownNote : ∀ met ∈ Route.trace context (note.parent.route {}) record, met.isOwn = true := by
    simp [noteTrace, isOwn, record]
  have isFirst : tag.index? = some (.position 0) := by
    rw [isElement]
    rfl
  have isUnset : note.parent.get context (.dict []) = .ok .null := rfl
  have tagReached := reached_of_parse parsed
  have noteReached := note_reached "first"
  obtain ⟨-, -, moves⟩ := (removed_value_is_gone tagReached).1 _ _ ownTag tagRemoved
  obtain ⟨items, -, -, reads⟩ := moves 0 isFirst
  have movedUp : (Pointer.element tag.parent "0" (.position 0)).get context withoutTag =
      (Pointer.element tag.parent "1" (.position 1)).get context record := ((reads context.registry context.memory "0" "1").2 0 (Nat.le_refl 0)).1
  rw [← isElement] at movedUp
  obtain ⟨-, vacant, -⟩ := (removed_value_is_gone noteReached).1 _ _ ownNote noteRemoved
  exact ⟨tag, withoutTag, withoutNote, parsed, tagReached, noteReached, ownTag, ownNote, tagRemoved, isFirst,
    movedUp.trans second, noteRemoved, rfl, (vacant .missing rfl context.registry context.memory).2, isUnset,
    (removed_value_is_gone noteReached).2 "first" rfl isUnset⟩

/-- A pointer makes up its location anew whenever it is asked for it, so that the tokens which are removed from one are
there again in the next. -/
theorem tokens_of_a_pointer_are_not_removed :
    ∃ container pointer after,
      ({} : Context).root pointerHolder = .ok container ∧
      (parse {} container true (.text "/held/location/parts")).outcome = .ok pointer ∧
      pointer.vacancy? = some .null ∧
      let record : Value := .dict [("held", .pointer (.root container))]
      pointer.edit {} .remove record = (after, .ok (.list [])) ∧
      pointer.get {} after = .ok (.list []) ∧ pointer.get {} after ≠ .ok .null :=
  ⟨_, _, _, rfl, rfl, rfl, rfl, rfl, nofun⟩

end Pointer
end RecordAddress
