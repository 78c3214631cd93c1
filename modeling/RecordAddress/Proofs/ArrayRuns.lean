import RecordAddress.Proofs.Frame
import RecordAddress.Proofs.Sites

/-! Runs of edits on the elements of one array. Whatever fails in between, the array is the list that the edits which
succeeded make of it, one after the other. -/

namespace RecordAddress
open Value

/-- The value of an array, which is null as long as it is unset. -/
def Value.ofArray (items? : Option (List Value)) : Value :=
  items?.elim null list

namespace Edit
variable {change : Edit} {index : ElementIndex} {items : List Value}

/-- How many elements more there are after the edit. -/
def gain : Edit → Int
  | add _ => 1
  | replace _ => 0
  | remove => -1

/-- What the edit of an element makes of a list. Adding after the last element appends. -/
def onElement (index : ElementIndex) (items : List Value) (change : Edit) : List Value :=
  match index, change with
  | .position index, change => change.onItems index items
  | _, .add value => items ++ [value]
  | _, _ => items

theorem length_onItems {position : Nat} (inside : position < items.length) :
    ((change.onItems position items).length : Int) = items.length + change.gain := by
  cases change with
  | add value =>
    simp only [onItems, gain, List.length_append, List.length_take, List.length_cons, List.length_drop]
    omega
  | replace value => simp [onItems, gain]
  | remove =>
    simp only [onItems, gain, List.length_eraseIdx, inside, ite_true]
    omega

end Edit

namespace Route
variable {context : Context} {change : Edit} {index : ElementIndex} {items : List Value} {after prior : Value}

theorem edit_position (position : Nat) :
    edit context change (.position position) [] (.list items) =
      if items.length ≤ position then (.list items, .error ⟨0, .mismatch .outOfBounds⟩)
      else (.list (change.onItems position items), .ok (items[position]?.getD .missing)) := by
  have read : (Access.position position).read context 0 (.list items) = .ok (items[position]?.getD .missing) := by
    rw [Access.read_position]
    rfl
  by_cases beyond : items.length ≤ position
  · simp only [edit, editSlot, read, Access.write_list, if_pos beyond]
    rfl
  · simp only [edit, editSlot, read, Access.write_list, if_neg beyond]
    rfl

theorem edit_afterLast :
    edit context change .afterLast [] (.list items) =
      match change with
      | .add value => (.list (items ++ [value]), .ok .missing)
      | _ => (.list items, .error ⟨0, .mismatch .outOfBounds⟩) := by
  cases change <;> rfl

/-- An edit of an element that succeeds does what it does to a list, and is inside of it. -/
theorem edit_element (isElement : index.kind = .array)
    (done : edit context change index.access [] (.list items) = (after, .ok prior)) :
    after = .list (change.onElement index items) ∧
      (change.onElement index items).length = items.length + change.gain ∧
      ∀ position, index = .position position → position < items.length := by
  cases index with
  | position position =>
    rw [ElementIndex.access, edit_position] at done
    split at done
    next => cases done
    next inside =>
      cases done
      refine ⟨rfl, Edit.length_onItems (Nat.lt_of_not_le inside), fun other same => ?_⟩
      cases same
      exact Nat.lt_of_not_le inside
  | afterLast =>
    rw [ElementIndex.access, edit_afterLast] at done
    cases change with
    | add value =>
      cases done
      exact ⟨rfl, by simp [Edit.onElement, Edit.gain], fun _ same => by cases same⟩
    | replace | remove => cases done
  | key => cases isElement

/-- Inside of the list an edit of an element succeeds, and so does appending. -/
theorem edit_element_inside (isElement : index.kind = .array)
    (inside : ∀ position, index = .position position → position < items.length)
    (adds : index = .afterLast → ∃ value, change = .add value) :
    ∃ prior, (edit context change index.access [] (.list items)).2 = .ok prior := by
  cases index with
  | position position =>
    rw [ElementIndex.access, edit_position, if_neg (Nat.not_le.mpr (inside position rfl))]
    exact ⟨_, rfl⟩
  | afterLast =>
    obtain ⟨value, rfl⟩ := adds rfl
    exact ⟨_, rfl⟩
  | key => cases isElement

end Route

namespace Pointer
variable {registry : Registry} {memory : Memory} {container : Container} {array pointer : Pointer} {record after prior : Value}
  {items? : Option (List Value)} {change : Edit}

/-- The pointer is that of an array, and not of one of its elements. -/
def IsArray (pointer : Pointer) : Prop :=
  ∃ parent token target children, pointer = .property parent token target children ∧ target.field.collection? = some .array

/-- The array is unset in the record, or it has the items. Its way leads through parts of the record alone. -/
def Holds (array : Pointer) (record : Value) (items? : Option (List Value)) : Prop :=
  Route.Along (array.route {}) record (ofArray items?)

theorem Holds.get (holds : array.Holds record items?) (registry : Registry) (memory : Memory) :
    array.get { registry, memory } record = .ok (ofArray items?) :=
  mapError_eq_ok.mpr (Route.Along.read holds registry memory)

private theorem null_or_list (items? : Option (List Value)) :
    ofArray items? = .null ∨ ∃ items, ofArray items? = .list items := by
  cases items? with
  | none => exact .inl rfl
  | some items => exact .inr ⟨items, rfl⟩

theorem holds_of_get (reached : Reached container array) (isArray : array.IsArray)
    (got : array.get { registry, memory } record = .ok (ofArray items?))
    (own : ∀ met ∈ Route.trace { registry, memory } (array.route {}) record, met.isOwn = true) : array.Holds record items? := by
  obtain ⟨parent, token, target, children, rfl, -⟩ := isArray
  exact Route.along_of_read (mapError_eq_ok.mp got) (null_or_list items?) own (no_collection_above reached)

/-- A call of an edit, and what was registered and open at the time. -/
structure Call where
  registry : Registry
  memory : Memory
  pointer : Pointer
  change : Edit

namespace Call

def run (call : Call) (record : Value) : Value × Except AccessFault Value :=
  call.pointer.edit { registry := call.registry, memory := call.memory } call.change record

structure IsIn (call : Call) (container : Container) (array : Pointer) : Prop where
  reached : Reached container call.pointer
  isElement : call.pointer.isElement = true
  parent : call.pointer.parent = array

def onItems (call : Call) (items : List Value) : List Value :=
  call.pointer.index?.elim items fun index => call.change.onElement index items

/-- The calls that succeed, each on the record that the ones before it leave. -/
def succeeding : List Call → Value → List Call
  | [], _ => []
  | call :: rest, record =>
    match call.run record with
    | (after, .ok _) => call :: succeeding rest after
    | (after, .error _) => succeeding rest after

def totalGain : List Call → Int
  | [] => 0
  | call :: rest => call.change.gain + totalGain rest

end Call

def afterCalls (calls : List Call) (record : Value) : Value :=
  calls.foldl (fun record call => (call.run record).1) record

/-- What the calls make of the array if all of them succeed. -/
def onArray (items? : Option (List Value)) (calls : List Call) : Option (List Value) :=
  calls.foldl (fun items? call => some (call.onItems (items?.getD []))) items?

variable {call : Call} {calls : List Call}

private theorem element_of_call (isIn : call.IsIn container array) (isArray : array.IsArray) :
    ∃ token index, call.pointer = .element array token index ∧ index.kind = .array := by
  obtain ⟨reached, isElement, above⟩ := isIn
  obtain ⟨parent, token, target, children, rfl, collection⟩ := isArray
  cases pointer : call.pointer with
  | root | property => simp [pointer, Pointer.isElement] at isElement
  | element other last index =>
    rw [pointer] at reached above
    obtain rfl : other = .property parent token target children := above
    obtain ⟨_, _, _, _, same, kind⟩ := reached.below_collection
    cases same
    exact ⟨last, index, rfl, Option.some.inj (kind.symm.trans collection)⟩

/-- A call that fails changes nothing, and one that succeeds changes the array as it would a list. -/
theorem Holds.after_call (holds : array.Holds record items?) (isArray : array.IsArray) (isIn : call.IsIn container array) :
    match call.run record with
    | (after, .error _) => after = record
    | (after, .ok _) => array.Holds after (some (call.onItems (items?.getD []))) ∧
        (call.onItems (items?.getD [])).length = (items?.getD []).length + call.change.gain ∧
        ∀ position, call.pointer.index? = some (.position position) → position < (items?.getD []).length := by
  cases ran : call.run record with
  | mk after outcome =>
  cases outcome with
  | error fault =>
    have failed : (call.run record).2 = .error fault := by rw [ran]
    have kept : (call.run record).1 = record := Pointer.edit_failed failed
    rwa [ran] at kept
  | ok prior =>
    obtain ⟨token, index, pointer, kind⟩ := element_of_call isIn isArray
    obtain ⟨access, rest, way, walks⟩ := edit_walks ran
    have whole : array.route {} ++ [index.access] = access :: rest := by rw [← way, pointer, route_of_element]
    have isElement : index.access.kind? = some .array := by rw [kind_of_access, kind]
    obtain ⟨later, inner, along⟩ := Route.Along.edited holds (null_or_list items?) isElement whole ((walks ..).mp ran)
    have items : (ofArray items?).items?.getD [] = items?.getD [] := by cases items? <;> rfl
    rw [items] at inner
    obtain ⟨same, length, inside⟩ := Route.edit_element kind inner
    cases same
    have isIndex : call.pointer.index? = some index := by rw [pointer]; rfl
    have made : call.onItems (items?.getD []) = call.change.onElement index (items?.getD []) := by
      rw [Call.onItems, isIndex, Option.elim_some]
    simp only [made, isIndex, Option.some.injEq]
    exact ⟨along, length, inside⟩

/-- Calls on an array that is set succeed wherever they are inside of it, unless they are misuse. -/
theorem Holds.call_succeeds {items : List Value} (holds : array.Holds record (some items)) (isArray : array.IsArray)
    (isIn : call.IsIn container array) (proper : call.pointer.misuse? {} call.change = none)
    (inside : ∀ position, call.pointer.index? = some (.position position) → position < items.length) :
    ∃ after prior, call.run record = (after, .ok prior) := by
  obtain ⟨token, index, pointer, kind⟩ := element_of_call isIn isArray
  obtain ⟨access, rest, whole⟩ := Route.exists_first (array.route {}) index.access []
  have isIndex : call.pointer.index? = some index := by rw [pointer]; rfl
  have insideToo : ∀ position, index = .position position → position < items.length := fun position same =>
    inside position (isIndex.trans (congrArg some same))
  have adds : index = .afterLast → ∃ value, call.change = .add value := by
    intro last
    rw [pointer, last] at proper
    exact adds_after_last proper
  obtain ⟨prior, succeeds⟩ : ∃ prior, (Route.edit { registry := call.registry, memory := call.memory } call.change
    index.access [] (.list items)).2 = .ok prior := Route.edit_element_inside kind insideToo adds
  have along : Route.Along (array.route {}) record (.list items) := holds
  rw [← along.outcome (fun _ => rfl) whole] at succeeds
  have way : call.pointer.route {} = access :: rest := by rw [pointer, route_of_element, whole]
  refine ⟨(call.run record).1, prior, Prod.ext rfl ?_⟩
  simp only [Call.run, edit, proper, way, mapError_eq_ok]
  exact succeeds

/-- Whatever calls are made, the array becomes what those of them that succeed make of it. -/
theorem Holds.after_calls (holds : array.Holds record items?) (isArray : array.IsArray)
    (isIn : ∀ call ∈ calls, call.IsIn container array) :
    array.Holds (afterCalls calls record) (onArray items? (Call.succeeding calls record)) ∧
      (((onArray items? (Call.succeeding calls record)).getD []).length : Int) =
        (items?.getD []).length + Call.totalGain (Call.succeeding calls record) := by
  -- over the calls, from whatever array the ones before have left
  induction calls generalizing record items? with
  | nil => exact ⟨holds, by simp [onArray, Call.succeeding, Call.totalGain]⟩
  | cons call rest ih =>
    obtain ⟨first, later⟩ := List.forall_mem_cons.mp isIn
    have step := holds.after_call isArray first
    cases ran : call.run record with
    | mk after outcome =>
    rw [ran] at step
    rw [afterCalls, List.foldl_cons, ran]
    cases outcome with
    | error fault =>
      obtain rfl : after = record := step
      simp only [Call.succeeding, ran]
      exact ih holds later
    | ok prior =>
      obtain ⟨made, length, -⟩ := step
      obtain ⟨holdsAfter, total⟩ := ih made later
      simp only [Call.succeeding, ran]
      refine ⟨holdsAfter, ?_⟩
      simp only [onArray, List.foldl_cons, Call.totalGain, Option.getD_some] at total length ⊢
      omega

/-- Whatever calls are made through elements of an array, it becomes the list that those of them which succeed make of
it, and has as many elements more as they added and removed. After that, too, a call that fails changes nothing, one
that succeeds is inside of the list, and every call that is inside of it succeeds, unless it is misuse or the array is
still unset. -/
theorem array_calls_act_on_a_list {registry : Registry} {memory : Memory} {container : Container} {array : Pointer}
    {record : Value} {items? : Option (List Value)} (reached : Reached container array) (isArray : array.IsArray)
    (got : array.get { registry, memory } record = .ok (ofArray items?))
    (own : ∀ met ∈ Route.trace { registry, memory } (array.route {}) record, met.isOwn = true)
    (calls : List Call) (isIn : ∀ call ∈ calls, call.IsIn container array) :
    let last := afterCalls calls record
    let done := Call.succeeding calls record
    let items := (onArray items? done).getD []
    (∀ present later, array.get { registry := present, memory := later } last = .ok (ofArray (onArray items? done))) ∧
    (items.length : Int) = (items?.getD []).length + Call.totalGain done ∧
    ∀ call : Call, call.IsIn container array →
      (∀ after fault, call.run last = (after, .error fault) → after = last) ∧
      (∀ after prior position, call.run last = (after, .ok prior) → call.pointer.index? = some (.position position) →
        position < items.length) ∧
      (onArray items? done ≠ none → call.pointer.misuse? {} call.change = none →
        (∀ position, call.pointer.index? = some (.position position) → position < items.length) →
        ∃ after prior, call.run last = (after, .ok prior)) := by
  intro last done items
  have holds := holds_of_get reached isArray got own
  obtain ⟨holdsAfter, total⟩ := holds.after_calls isArray isIn
  refine ⟨holdsAfter.get, total, fun call inside => ?_⟩
  have step := holdsAfter.after_call isArray inside
  refine ⟨?_, ?_, ?_⟩
  · intro after fault failed
    rw [failed] at step
    exact step
  · intro after prior position succeeded
    rw [succeeded] at step
    exact step.2.2 position
  · intro isSet proper within
    obtain ⟨elements, same⟩ := Option.ne_none_iff_exists'.mp isSet
    have held : array.Holds last (some elements) := same ▸ holdsAfter
    refine held.call_succeeds isArray inside proper ?_
    simpa [items, same] using within

def onTags (token : String) (index : ElementIndex) (change : Edit) : Call where
  registry := Orders.registry
  memory := {}
  pointer := .element Orders.nextTag.parent token index
  change := change

theorem tags_reached : Reached Orders.container Orders.nextTag.parent := by
  have extended : (extend { registry := Orders.registry } .null true (.root Orders.container) "tags").outcome =
      .ok Orders.nextTag.parent := rfl
  exact Reached.root.extend extended

private theorem onTags_isIn {token : String} (index : ArrayIndex) (read : ArrayIndex.ofText true token = .ok index)
    (change : Edit) : (onTags token (.ofArray index) change).IsIn Orders.container Orders.nextTag.parent where
  reached := by
    have next : Orders.nextTag.parent.next {} = .arrayIndex := rfl
    have extended : (extend { registry := Orders.registry } .null true Orders.nextTag.parent token).outcome =
        .ok (.element Orders.nextTag.parent token (.ofArray index)) := extend_eq_ok.mpr (.inl ⟨index, next, read, rfl⟩)
    exact tags_reached.extend extended
  isElement := rfl
  parent := rfl

/-- An order without tags is given two, and one that is not there is removed in vain. -/
theorem two_tags_are_added :
    let context : Context := { registry := Orders.registry }
    let tags := Orders.nextTag.parent
    let calls := [onTags "-" .afterLast (.add (.text "new")), onTags "7" (.position 7) .remove,
      onTags "0" (.position 0) (.add (.text "newer"))]
    Reached Orders.container tags ∧ tags.IsArray ∧ tags.get context (.dict []) = .ok (ofArray none) ∧
    (∀ met ∈ Route.trace context (tags.route {}) (.dict []), met.isOwn = true) ∧
    (∀ call ∈ calls, call.IsIn Orders.container tags) ∧
    tags.get context (afterCalls calls (.dict [])) = .ok (.list [.text "newer", .text "new"]) := by
  intro context tags calls
  have isArray : tags.IsArray := ⟨_, _, _, _, rfl, rfl⟩
  have got : tags.get context (.dict []) = .ok (ofArray none) := rfl
  have own : ∀ met ∈ Route.trace context (tags.route {}) (.dict []), met.isOwn = true := by
    have met : Route.trace context (tags.route {}) (.dict []) = [.dict [], .null] := rfl
    simp [met, isOwn]
  have isIn : ∀ call ∈ calls, call.IsIn Orders.container tags := by
    simp only [calls, List.mem_cons, List.not_mem_nil, or_false, forall_eq_or_imp, forall_eq]
    exact ⟨onTags_isIn .afterLast rfl _, onTags_isIn (.position 7) rfl _, onTags_isIn (.position 0) rfl _⟩
  have all := array_calls_act_on_a_list tags_reached isArray got own calls isIn
  exact ⟨tags_reached, isArray, got, own, isIn, all.1 _ _⟩

/-- Holders of pointers, of which the location is asked for its tokens. -/
def pointerHolder : Schema :=
  let parts : Schema :=
    { id := 7, name := "Parts", recordType := "Parts", typeProperty := "type", subtypes := []
      fields := [Orders.field "parts" (.array { content := Orders.word })] }
  let shown : Schema :=
    { id := 8, name := "Shown", recordType := "Shown", typeProperty := "type", subtypes := []
      fields := [{ Orders.field "location" (.single (.nested (.schema parts))) with mappedKey := "json_pointer" }] }
  { id := 9, name := "Holder", recordType := "Holder", typeProperty := "type", subtypes := []
    fields := [Orders.field "held" (.single (.nested (.schema shown)))] }

/-- A pointer makes up its location anew whenever it is asked for it. What is appended to the tokens of one is not in
those of the next. -/
theorem tokens_of_a_pointer_stay :
    ∃ container pointer,
      ({} : Context).root pointerHolder = .ok container ∧
      (parse {} container true (.text "/held/location/parts/-")).outcome = .ok pointer ∧
      pointer.parent.IsArray ∧
      let record : Value := .dict [("held", .pointer (.root container))]
      pointer.parent.get {} record = .ok (.list []) ∧
      ∃ after, pointer.edit {} (.add (.text "new")) record = (after, .ok .missing) ∧
        pointer.parent.get {} after = .ok (.list []) :=
  ⟨_, _, rfl, rfl, ⟨_, _, _, _, rfl, rfl⟩, rfl, _, rfl, rfl⟩

end Pointer
end RecordAddress
