import RecordAddress.Proofs.Atomicity
import RecordAddress.Proofs.DirectReading
import RecordAddress.Proofs.Positions
import RecordAddress.Proofs.Writes

/-! Representations of objects in records. An object is a mapping that holds its properties under their names, or
holds them as attributes under their mapped keys. Pointers do not tell one from the other: records that differ in
that alone are read and edited alike. -/

namespace RecordAddress
open Value

/-- What can hold the properties of an object. -/
inductive Representation where
  | dict
  | view
  | object
  deriving DecidableEq

namespace Representation

def hold : Representation → Entries Value → Value
  | dict => .dict
  | view => .view
  | object => .object

/-- The key under which a property is held. -/
def keyOf : Representation → Field Schema → String
  | dict | view => Field.name
  | object => Field.mappedKey

def isChangeable : Representation → Bool
  | dict | object => true
  | view => false

/-- What is held once a property is set, or unset. Mappings forget an unset property, objects keep it as null. -/
def store (kind : Representation) (key : String) (value? : Option Value) (entries : Entries Value) : Entries Value :=
  match kind, value? with
  | _, some value => Entries.put key value entries
  | object, none => Entries.put key .null entries
  | dict, none | view, none => Entries.erase key entries

/-- Whether two holders of the same properties may stand for each other. A mapping and an object may if both can be
changed, whatever else they hold. Holders of one kind may if they differ in nothing but the properties. -/
inductive Interchange (properties : Field Schema → Prop) :
    Representation → Entries Value → Representation → Entries Value → Prop
  | alike {kind : Representation} {entries others : Entries Value} : entries.keys = others.keys →
      (∀ key, (∀ field, properties field → kind.keyOf field ≠ key) → Entries.find? key entries = Entries.find? key others) →
      Interchange properties kind entries kind others
  | unlike {first second : Representation} {entries others : Entries Value} : first ≠ second →
      first.isChangeable = true → second.isChangeable = true → Interchange properties first entries second others

end Representation

/-- The values whose items are told by their index. -/
inductive Sequence : (List Value → Value) → Prop
  | list : Sequence .list
  | tuple : Sequence .tuple

inductive Mapping : (Entries Value → Value) → Prop
  | dict : Mapping .dict
  | view : Mapping .view

/-- Values at a position that differ in nothing but the representation of objects there and below. -/
inductive Related (registry : Registry) : Position → Value → Value → Prop
  | same {position : Position} {value : Value} : Related registry position value value
  | arrays {position : Position} {hold : List Value → Value} {items others : List Value} : Sequence hold →
      position.collection = some .array → items.length = others.length →
      (∀ index inside otherInside,
        Related registry position.element (items.get ⟨index, inside⟩) (others.get ⟨index, otherInside⟩)) →
      Related registry position (hold items) (hold others)
  | maps {position : Position} {hold : Entries Value → Value} {entries others : Entries Value} : Mapping hold →
      position.collection = some .map → entries.keys = others.keys →
      (∀ key value other, Entries.find? key entries = some value → Entries.find? key others = some other →
        Related registry position.element value other) →
      Related registry position (hold entries) (hold others)
  | objects {schema : Schema} {first second : Representation} {entries others : Entries Value} :
      first.Interchange (schema.Addresses registry) entries second others →
      (∀ field, schema.Addresses registry field → Related registry (field.position registry)
        ((Entries.find? (first.keyOf field) entries).getD .null) ((Entries.find? (second.keyOf field) others).getD .null)) →
      Related registry (.object schema) (first.hold entries) (second.hold others)

/-- Entries that have related values under the keys that both have. -/
abbrev Related.Entrywise (registry : Registry) (position : Position) (entries others : Entries Value) : Prop :=
  ∀ key value other, Entries.find? key entries = some value → Entries.find? key others = some other →
    Related registry position value other

/-- Outcomes that are the same fault, or results that are related. -/
inductive Concur {ε α : Type} (related : α → α → Prop) : Except ε α → Except ε α → Prop
  | fault {fault : ε} : Concur related (.error fault) (.error fault)
  | result {first second : α} : related first second → Concur related (.ok first) (.ok second)

variable {registry : Registry} {context : Context} {schema : Schema} {field : Field Schema} {access : Access}
  {position next last : Position} {value other : Value} {value? other? : Option Value} {depth : Nat} {change : Edit}

namespace Concur
variable {ε δ α : Type} {related : α → α → Prop} {first second : Except ε α}

theorem refl (reflexive : ∀ value, related value value) (outcome : Except ε α) : Concur related outcome outcome := by
  cases outcome with
  | error fault => exact .fault
  | ok value => exact .result (reflexive value)

theorem mapError (concur : Concur related first second) (f : ε → δ) :
    Concur related (first.mapError f) (second.mapError f) := by
  cases concur with
  | fault => exact .fault
  | result holds => exact .result holds

end Concur

namespace Representation
variable {entries others : Entries Value} (kind : Representation)

theorem find?_store (key name : String) :
    (Entries.find? name (kind.store key value? entries)).getD .null =
      if key = name then value?.getD .null else (Entries.find? name entries).getD .null := by
  by_cases same : key = name <;> cases value? <;> cases kind <;> simp [store, Entries.find?_put, Entries.find?_erase, same]

theorem find?_store_of_ne {key name : String} (apart : key ≠ name) :
    Entries.find? name (kind.store key value? entries) = Entries.find? name entries := by
  cases value? <;> cases kind <;> simp [store, Entries.find?_put, Entries.find?_erase, apart]

theorem keys_store (same : entries.keys = others.keys) (both : value?.isSome = other?.isSome) (key : String) :
    (kind.store key value? entries).keys = (kind.store key other? others).keys := by
  cases value? <;> cases other? <;> cases both <;> cases kind <;>
    simp only [store, Entries.keys_put, Entries.keys_erase, same]

theorem read_hold (field : Field Schema) (entries : Entries Value) :
    field.access.read context depth (kind.hold entries) =
      Access.needProperty field.collection? depth ((Entries.find? (kind.keyOf field) entries).getD .null) := by
  cases kind <;> rfl

theorem isUnsetIn_hold (field : Field Schema) (entries : Entries Value) :
    field.access.isUnsetIn context (kind.hold entries) =
      ((Entries.find? (kind.keyOf field) entries).getD .null).isUnset := by
  cases kind <;> rfl

theorem write_hold (field : Field Schema) (entries : Entries Value) (change : Edit) :
    field.access.write change (kind.hold entries) =
      if kind.isChangeable then .ok (kind.hold (kind.store (kind.keyOf field) change.value? entries))
      else .error (.mismatch (.expected .object)) := by
  cases kind <;> cases change <;> rfl

theorem absorb_hold (field : Field Schema) (entries : Entries Value) (value : Value) :
    field.access.absorb value (kind.hold entries) = kind.hold (kind.store (kind.keyOf field) (some value) entries) := by
  cases kind <;> rfl

end Representation

theorem Schema.Uniform.keyOf_eq (uniform : schema.Uniform registry) {target : Field Schema} (kind : Representation)
    (addresses : schema.Addresses registry field) (targetAddresses : schema.Addresses registry target) :
    kind.keyOf field = kind.keyOf target ↔ field.name = target.name := by
  cases kind with
  | dict | view => exact Iff.rfl
  | object => exact (uniform.keys field target addresses targetAddresses).symm

namespace Related
variable {items otherItems : List Value} {entries others : Entries Value} {first second : Representation}

/-- Whether a value is set, or there at all, is the same of related values. -/
theorem marks_eq (related : Related registry position value other) :
    value.isUnset = other.isUnset ∧ value.isMissing = other.isMissing := by
  cases related with
  | same => exact ⟨rfl, rfl⟩
  | arrays sequence => cases sequence <;> exact ⟨rfl, rfl⟩
  | maps mapping => cases mapping <;> exact ⟨rfl, rfl⟩
  | @objects _ first second => cases first <;> cases second <;> exact ⟨rfl, rfl⟩

theorem needElement (related : Related registry position value other) (depth : Nat) :
    Concur (Related registry position) (Access.needElement depth value) (Access.needElement depth other) := by
  simp only [Access.needElement, related.marks_eq]
  split
  · exact .fault
  · exact .result related

theorem needProperty (related : Related registry position value other) (collection : Option Collection) (depth : Nat) :
    Concur (Related registry position) (Access.needProperty collection depth value)
      (Access.needProperty collection depth other) := by
  simp only [Access.needProperty, related.marks_eq]
  split
  · -- what stands for a collection that is not set does not depend on the record
    exact .refl (fun _ => .same) _
  · exact .result related

theorem item (lengths : items.length = otherItems.length)
    (each : ∀ index inside otherInside,
      Related registry position (items.get ⟨index, inside⟩) (otherItems.get ⟨index, otherInside⟩)) (index : Nat) :
    Related registry position (items[index]?.getD .missing) (otherItems[index]?.getD .missing) := by
  by_cases inside : index < items.length
  · have otherInside : index < otherItems.length := lengths ▸ inside
    simpa [inside, otherInside] using each index inside otherInside
  · have beyond : ¬ index < otherItems.length := lengths ▸ inside
    simp [inside, beyond, Related.same]

theorem entry (keys : entries.keys = others.keys) (each : Entrywise registry position entries others) (key : String) :
    Related registry position ((Entries.find? key entries).getD .missing) ((Entries.find? key others).getD .missing) := by
  rcases Entries.find?_both keys key with ⟨absent, otherAbsent⟩ | ⟨value, other, found, otherFound⟩
  · rw [absent, otherAbsent]
    exact .same
  · rw [found, otherFound]
    exact each key value other found otherFound

theorem arrays_of_alike {hold : List Value → Value} (sequence : Sequence hold)
    (collection : position.collection = some .array)
    (alike : List.Forall₂ (Related registry position.element) items otherItems) :
    Related registry position (hold items) (hold otherItems) := by
  obtain ⟨lengths, each⟩ := List.forall₂_iff_get.mp alike
  exact .arrays sequence collection lengths each

theorem insert (alike : List.Forall₂ (Related registry position) items otherItems) (index : Nat)
    (related : Related registry position value other) :
    List.Forall₂ (Related registry position) (items.take index ++ value :: items.drop index)
      (otherItems.take index ++ other :: otherItems.drop index) :=
  List.rel_append (List.forall₂_take index alike) (.cons related (List.forall₂_drop index alike))

theorem set (alike : List.Forall₂ (Related registry position) items otherItems) (index : Nat)
    (related : Related registry position value other) :
    List.Forall₂ (Related registry position) (items.set index value) (otherItems.set index other) := by
  rw [List.set_eq_take_append_cons_drop, List.set_eq_take_append_cons_drop, alike.length_eq]
  split
  · exact List.rel_append (List.forall₂_take index alike) (.cons related (List.forall₂_drop (index + 1) alike))
  · exact alike

theorem eraseIdx (alike : List.Forall₂ (Related registry position) items otherItems) (index : Nat) :
    List.Forall₂ (Related registry position) (items.eraseIdx index) (otherItems.eraseIdx index) := by
  rw [List.eraseIdx_eq_take_drop_succ, List.eraseIdx_eq_take_drop_succ]
  exact List.rel_append (List.forall₂_take index alike) (List.forall₂_drop (index + 1) alike)

theorem put {hold : Entries Value → Value} (mapping : Mapping hold) (collection : position.collection = some .map)
    (keys : entries.keys = others.keys) (each : Entrywise registry position.element entries others) (key : String)
    (related : Related registry position.element value other) :
    Related registry position (hold (Entries.put key value entries)) (hold (Entries.put key other others)) := by
  apply Related.maps mapping collection
  · rw [Entries.keys_put, Entries.keys_put, keys]
  · intro name stored otherStored found otherFound
    rw [Entries.find?_put] at found otherFound
    by_cases same : key = name
    · rw [if_pos same] at found otherFound
      cases found
      cases otherFound
      exact related
    · rw [if_neg same] at found otherFound
      exact each name stored otherStored found otherFound

theorem erase {hold : Entries Value → Value} (mapping : Mapping hold) (collection : position.collection = some .map)
    (keys : entries.keys = others.keys) (each : Entrywise registry position.element entries others) (key : String) :
    Related registry position (hold (Entries.erase key entries)) (hold (Entries.erase key others)) := by
  apply Related.maps mapping collection
  · rw [Entries.keys_erase, Entries.keys_erase, keys]
  · intro name stored otherStored found otherFound
    rw [Entries.find?_erase] at found otherFound
    by_cases same : key = name
    · rw [if_pos same] at found
      cases found
    · rw [if_neg same] at found otherFound
      exact each name stored otherStored found otherFound

/-- Objects stay related when a property of both is set to related values, or is unset in both. -/
theorem store (uniform : schema.Uniform registry) (addresses : schema.Addresses registry field)
    (interchange : first.Interchange (schema.Addresses registry) entries second others)
    (each : ∀ field, schema.Addresses registry field → Related registry (field.position registry)
      ((Entries.find? (first.keyOf field) entries).getD .null) ((Entries.find? (second.keyOf field) others).getD .null))
    (given : Option.Rel (Related registry (field.position registry)) value? other?) :
    Related registry (.object schema) (first.hold (first.store (first.keyOf field) value? entries))
      (second.hold (second.store (second.keyOf field) other? others)) := by
  apply Related.objects
  · cases interchange with
    | alike keys rest =>
      have both : value?.isSome = other?.isSome := by cases given <;> rfl
      refine .alike (Representation.keys_store _ keys both _) ?_
      intro key apart
      have elsewhere := apart field addresses
      rw [Representation.find?_store_of_ne _ elsewhere, Representation.find?_store_of_ne _ elsewhere, rest key apart]
    | unlike differ changeable otherChangeable => exact .unlike differ changeable otherChangeable
  · intro target targetAddresses
    rw [Representation.find?_store, Representation.find?_store]
    simp only [uniform.keyOf_eq _ addresses targetAddresses]
    by_cases same : field.name = target.name
    · rw [if_pos same, if_pos same, ← uniform.positions field target addresses targetAddresses same]
      cases given with
      | some related => exact related
      | none => exact .same
    · rw [if_neg same, if_neg same]
      exact each target targetAddresses

end Related

namespace Position.Step
variable {holder otherHolder : Value}

/-- Steps into related values meet the same obstacle, or read related values. -/
theorem read_concur (step : position.Step registry access next) (related : Related registry position holder otherHolder)
    (depth : Nat) :
    Concur (Related registry next) (access.read context depth holder) (access.read context depth otherHolder) := by
  cases step with
  | property uniform addresses =>
    cases related with
    | same => exact .refl (fun _ => .same) _
    | arrays _ collection | maps _ collection => cases collection
    | objects interchange each =>
      rw [Representation.read_hold, Representation.read_hold]
      exact (each _ addresses).needProperty _ depth
  | @element _ index kind =>
    cases related with
    | same => exact .refl (fun _ => .same) _
    | objects => cases kind
    | arrays sequence collection lengths each =>
      cases index with
      | position index =>
        simp only [ElementIndex.access, Access.read_position]
        cases sequence <;> exact (Related.item lengths each index).needElement depth
      | afterLast => exact .result .same
      | key => cases collection.symm.trans kind
    | maps mapping collection keys each =>
      cases index with
      | position | afterLast => cases collection.symm.trans kind
      | key key =>
        simp only [ElementIndex.access, Access.read_entry]
        cases mapping <;> exact (Related.entry keys each key).needElement depth

theorem isUnsetIn_eq (step : position.Step registry access next) (related : Related registry position holder otherHolder) :
    access.isUnsetIn context holder = access.isUnsetIn context otherHolder := by
  cases step with
  | property uniform addresses =>
    cases related with
    | same => rfl
    | arrays _ collection | maps _ collection => cases collection
    | objects interchange each =>
      rw [Representation.isUnsetIn_hold, Representation.isUnsetIn_hold]
      exact (each _ addresses).marks_eq.1
  | @element _ index kind => cases index <;> rfl

theorem changeable_eq {first second : Representation} {entries others : Entries Value}
    (interchange : first.Interchange (schema.Addresses registry) entries second others) :
    first.isChangeable = second.isChangeable := by
  cases interchange with
  | alike => rfl
  | unlike _ changeable otherChangeable => rw [changeable, otherChangeable]

/-- Related values can be put into a property of objects that differ. -/
theorem write_property {otherChange : Edit} (uniform : schema.Uniform registry) (addresses : schema.Addresses registry field)
    (related : Related registry (.object schema) holder otherHolder) (differ : holder ≠ otherHolder)
    (given : Option.Rel (Related registry (field.position registry)) change.value? otherChange.value?) :
    Concur (Related registry (.object schema)) (field.access.write change holder)
      (field.access.write otherChange otherHolder) := by
  cases related with
  | same => exact absurd rfl differ
  | arrays _ collection | maps _ collection => cases collection
  | objects interchange each =>
    rw [Representation.write_hold, Representation.write_hold, changeable_eq interchange]
    split
    · exact .result (Related.store uniform addresses interchange each given)
    · exact .fault

theorem write_position {hold : List Value → Value} {items others : List Value} (sequence : Sequence hold)
    (collection : position.collection = some .array)
    (alike : List.Forall₂ (Related registry position.element) items others) (index : Nat) (change : Edit) :
    Concur (Related registry position) ((Access.position index).write change (hold items))
      ((Access.position index).write change (hold others)) := by
  cases sequence with
  | tuple => exact .fault
  | list =>
    rw [Access.write_list, Access.write_list, alike.length_eq]
    split
    · exact .fault
    · cases change with
      | add value => exact .result (.arrays_of_alike .list collection (Related.insert alike index .same))
      | replace value => exact .result (.arrays_of_alike .list collection (Related.set alike index .same))
      | remove => exact .result (.arrays_of_alike .list collection (Related.eraseIdx alike index))

/-- An edit meets the same obstacle in related values, or leaves related values. -/
theorem write_concur (step : position.Step registry access next) (related : Related registry position holder otherHolder)
    (change : Edit) :
    Concur (Related registry position) (access.write change holder) (access.write change otherHolder) := by
  by_cases differ : holder = otherHolder
  · subst differ
    exact .refl (fun _ => .same) _
  cases step with
  | property uniform addresses =>
    apply write_property uniform addresses related differ
    cases change with
    | add | replace => exact .some .same
    | remove => exact .none
  | @element _ index kind =>
    cases related with
    | same => exact absurd rfl differ
    | objects => cases kind
    | arrays sequence collection lengths each =>
      have alike := List.forall₂_iff_get.mpr ⟨lengths, each⟩
      cases index with
      | position index => exact write_position sequence collection alike index change
      | afterLast =>
        cases sequence with
        | tuple => exact .fault
        | list =>
          cases change with
          | add value => exact .result (.arrays_of_alike .list collection (List.rel_append alike (.cons .same .nil)))
          | replace | remove => exact .fault
      | key => cases collection.symm.trans kind
    | maps mapping collection keys each =>
      cases index with
      | position | afterLast => cases collection.symm.trans kind
      | key key =>
        cases mapping with
        | view => exact .fault
        | dict =>
          cases change with
          | add | replace => exact .result (.put .dict collection keys each key .same)
          | remove => exact .result (.erase .dict collection keys each key)

/-- Values that differ stay related when what was read from them has changed inside and is still related. -/
theorem absorb_related (step : position.Step registry access next) (related : Related registry position holder otherHolder)
    (differ : holder ≠ otherHolder) (below : Related registry next value other) :
    Related registry position (access.absorb value holder) (access.absorb other otherHolder) := by
  cases step with
  | property uniform addresses =>
    cases related with
    | same => exact absurd rfl differ
    | arrays _ collection | maps _ collection => cases collection
    | objects interchange each =>
      rw [Representation.absorb_hold, Representation.absorb_hold]
      exact .store uniform addresses interchange each (.some below)
  | @element _ index kind =>
    cases related with
    | same => exact absurd rfl differ
    | objects => cases kind
    | arrays sequence collection lengths each =>
      have alike := List.forall₂_iff_get.mpr ⟨lengths, each⟩
      cases index with
      | position index => cases sequence <;> exact .arrays_of_alike (by constructor) collection (Related.set alike index below)
      | afterLast => cases sequence <;> exact .arrays_of_alike (by constructor) collection alike
      | key => cases collection.symm.trans kind
    | maps mapping collection keys each =>
      cases index with
      | position | afterLast => cases collection.symm.trans kind
      | key key => cases mapping <;> exact .put (by constructor) collection keys each key below

/-- A collection that was made up for a property is stored alike. -/
theorem store_made_up (step : position.Step registry access next) (related : Related registry position holder otherHolder)
    (differ : holder ≠ otherHolder) (isUnset : access.isUnsetIn context holder = true)
    (below : Related registry next value other) :
    Concur (Related registry position) (access.write (.replace value) holder)
      (access.write (.replace other) otherHolder) := by
  cases step with
  | property uniform addresses => exact write_property uniform addresses related differ (.some below)
  | @element _ index kind => cases index <;> cases isUnset

end Position.Step

namespace Position.Way

theorem eq_of_nothing (leads : position.Way registry [] last) : last = position := by
  cases leads
  rfl

theorem read_concur {way : List Access} {holder otherHolder : Value} (leads : position.Way registry way last)
    (related : Related registry position holder otherHolder) :
    Concur (Related registry last) (Route.read context way holder) (Route.read context way otherHolder) := by
  induction leads generalizing holder otherHolder with
  | stop => exact .result related
  | @go position next last access rest step further ih =>
    have reads : Concur (Related registry next) (access.read context rest.length holder)
        (access.read context rest.length otherHolder) := step.read_concur related _
    simp only [Route.read]
    generalize access.read context rest.length holder = outcome at reads ⊢
    generalize access.read context rest.length otherHolder = otherOutcome at reads ⊢
    cases reads with
    | fault => exact .fault
    | result below => exact ih below

theorem slot_concur {holder otherHolder : Value} (step : position.Step registry access last)
    (related : Related registry position holder otherHolder) :
    Related registry position (Route.edit context change access [] holder).1
      (Route.edit context change access [] otherHolder).1 ∧
    Concur (Related registry last) (Route.edit context change access [] holder).2
      (Route.edit context change access [] otherHolder).2 := by
  have reads : Concur (Related registry last) (access.read context 0 holder) (access.read context 0 otherHolder) :=
    step.read_concur related 0
  have writes := step.write_concur related change
  simp only [Route.edit, Route.editSlot]
  generalize access.read context 0 holder = outcome at reads ⊢
  generalize access.read context 0 otherHolder = otherOutcome at reads ⊢
  generalize access.write change holder = written at writes ⊢
  generalize access.write change otherHolder = otherWritten at writes ⊢
  cases reads with
  | fault => exact ⟨related, .fault⟩
  | result prior =>
    cases writes with
    | fault => exact ⟨related, .fault⟩
    | result edited => exact ⟨edited, .result prior⟩

/-- Edits of related values meet the same obstacle or come to related prior values, and leave related values. -/
theorem edit_concur {rest : List Access} {holder otherHolder : Value} (leads : position.Way registry (access :: rest) last)
    (related : Related registry position holder otherHolder) :
    Related registry position (Route.edit context change access rest holder).1
      (Route.edit context change access rest otherHolder).1 ∧
    Concur (Related registry last) (Route.edit context change access rest holder).2
      (Route.edit context change access rest otherHolder).2 := by
  induction rest generalizing position access holder otherHolder with
  | nil =>
    cases leads with
    | go step stop =>
      cases stop
      exact slot_concur step related
  | cons following rest ih =>
    by_cases differ : holder = otherHolder
    · subst differ
      exact ⟨.same, .refl (fun _ => .same) _⟩
    cases leads with
    | @go _ next _ _ _ step further =>
      have reads : Concur (Related registry next) (access.read context (rest.length + 1) holder)
          (access.read context (rest.length + 1) otherHolder) := step.read_concur related _
      simp only [Route.edit]
      generalize access.read context (rest.length + 1) holder = outcome at reads ⊢
      generalize access.read context (rest.length + 1) otherHolder = otherOutcome at reads ⊢
      cases reads with
      | fault => exact ⟨related, .fault⟩
      | @result value other below =>
        obtain ⟨inside, outcomes⟩ := ih further below
        have alike : access.isUnsetIn context holder = access.isUnsetIn context otherHolder := step.isUnsetIn_eq related
        simp only [← alike]
        cases isUnset : access.isUnsetIn context holder with
        | false => exact ⟨step.absorb_related related differ inside, outcomes⟩
        | true =>
          have stores := step.store_made_up related differ isUnset inside
          simp only [ite_true]
          generalize (Route.edit context change following rest value).2 = done at outcomes ⊢
          generalize (Route.edit context change following rest other).2 = otherDone at outcomes ⊢
          cases outcomes with
          | fault => exact ⟨related, .fault⟩
          | result prior =>
            cases change with
            | remove => exact ⟨related, .result prior⟩
            | add given | replace given =>
              simp only [Edit.value?]
              generalize access.write (.replace _) holder = stored at stores ⊢
              generalize access.write (.replace _) otherHolder = otherStored at stores ⊢
              cases stores with
              | fault => exact ⟨related, .fault⟩
              | result edited => exact ⟨edited, .result prior⟩

end Position.Way

/-! Records of mere data. What is read in one is data again, or the mark of what is absent. -/

def Value.Mere (value : Value) : Prop :=
  value.isMissing = true ∨ value.throughout isData = true

/-- What reading comes to in mere data. It breaks nothing. -/
inductive Access.Regular : Except Obstacle Value → Prop
  | found {value : Value} : value.Mere → Regular (.ok value)
  | refused {mismatch : Mismatch} : Regular (.error (.mismatch mismatch))

namespace Access
variable {stored : Option Value}

theorem regular_element (fine : ∀ value, stored = some value → value.throughout isData = true) (depth : Nat) :
    Regular (needElement depth (stored.getD .missing)) := by
  unfold needElement
  split
  · exact .refused
  · cases stored with
    | none => exact .found (.inl rfl)
    | some value => exact .found (.inr (fine value rfl))

theorem regular_property (fine : ∀ value, stored = some value → value.throughout isData = true)
    (collection : Option Collection) (depth : Nat) : Regular (needProperty collection depth (stored.getD .null)) := by
  have emptied (kind : Collection) : (emptyOf kind).Mere := by
    cases kind <;> simp [Mere, emptyOf, throughout, allThroughout, entriesThroughout, isData]
  unfold needProperty
  split
  · cases collection with
    | none => exact .refused
    | some kind =>
      simp only
      split
      · exact .found (emptied kind)
      · exact .refused
  · cases stored with
    | none => exact .found (.inr (by simp [throughout, isData]))
    | some value => exact .found (.inr (fine value rfl))

end Access

namespace Position
variable {holder : Value}

private theorem property_regular (mere : holder.Mere) (depth : Nat) :
    Access.Regular (field.access.read context depth holder) := by
  rcases mere with absent | data
  · have nothing : ∀ value, (none : Option Value) = some value → value.throughout isData = true := nofun
    cases holder <;> cases absent
    exact Access.regular_property nothing field.collection? depth
  let target : Property := { field }
  show Access.Regular ((Pointer.accessOf {} target).read context depth holder)
  cases has : holder.stored? target.field with
  | none =>
    rw [Access.read_nothing_stored (check_of_throughout data) has]
    exact .refused
  | some stored =>
    rw [Access.read_stored has]
    apply Access.regular_property
    rintro value rfl
    exact data_of_stored? data has

private theorem element_regular {index : ElementIndex} (mere : holder.Mere) (depth : Nat) :
    Access.Regular (index.access.read context depth holder) := by
  by_cases dash : index = .afterLast
  · subst dash
    exact .found (.inl rfl)
  cases has : holder.element? index with
  | none =>
    obtain ⟨shape, refused⟩ : ∃ shape, index.access.read context depth holder = .error (.mismatch (.expected shape)) :=
      Access.read_no_element has dash depth
    rw [refused]
    exact .refused
  | some stored =>
    rw [Access.read_element has]
    apply Access.regular_element
    rintro value rfl
    rcases mere with absent | data
    · cases index <;> cases holder <;> cases absent <;> cases has
    · exact data_of_element? data has

theorem Step.read_regular (step : position.Step registry access next) (mere : holder.Mere) (depth : Nat) :
    Access.Regular (access.read context depth holder) := by
  cases step with
  | property => exact property_regular mere depth
  | element => exact element_regular mere depth

/-- Below mere data nothing but a mismatch of the record and its schema keeps a value from being read. -/
theorem Way.mismatch_of_mere {way : List Access} {failure : Route.Failure} (leads : position.Way registry way last)
    (mere : holder.Mere) (failed : Route.read context way holder = .error failure) :
    ∃ mismatch, failure.obstacle = .mismatch mismatch := by
  induction leads generalizing holder with
  | stop => cases failed
  | @go position next last access rest step further ih =>
    have regular : Access.Regular (access.read context rest.length holder) := step.read_regular mere _
    simp only [Route.read] at failed
    generalize access.read context rest.length holder = outcome at regular failed
    cases regular with
    | refused =>
      cases failed
      exact ⟨_, rfl⟩
    | found mere => exact ih mere failed

end Position

namespace Pointer

/-- Mappings and objects are interchangeable. Records that differ in the representation of their objects alone are
read alike through every pointer, and every edit of them meets the same fault or comes to related prior values and
leaves related records. Of mere data, what cannot be read is a fault of the data. -/
theorem representations_are_interchangeable (registry : Registry) (memory : Memory) {roots : Schema → Prop}
    {root : Schema} {pointer : Pointer} {record otherRecord : Value} (distinct : Distinct roots) (isRoot : roots root)
    (uniform : ∀ schema, root.Contains registry schema → schema.Uniform registry)
    (into : Into registry roots root pointer) (related : Related registry (.object root) record otherRecord) :
    let context : Context := { registry, memory }
    let alike := Related registry (pointer.position registry)
    Concur alike (pointer.get context record) (pointer.get context otherRecord) ∧
    (record.throughout isData = true → ∀ fault, pointer.get context record = .error fault → ∃ data, fault = .data data) ∧
    ∀ change, Concur alike (pointer.edit context change record).2 (pointer.edit context change otherRecord).2 ∧
      Related registry (.object root) (pointer.edit context change record).1 (pointer.edit context change otherRecord).1 := by
  intro context alike
  obtain ⟨-, placed⟩ := into.placed distinct isRoot uniform
  have leads : (Position.object root).Way registry (pointer.route context.amendments) (pointer.position registry) :=
    placed.way
  refine ⟨(leads.read_concur related).mapError _, ?_, ?_⟩
  · intro data fault failed
    obtain ⟨failure, unread, rfl⟩ := mapError_eq_error.mp failed
    obtain ⟨mismatch, same⟩ := leads.mismatch_of_mere (.inr data) unread
    simp only [faultAt, same]
    exact ⟨_, rfl⟩
  · intro change
    simp only [edit]
    cases pointer.misuse? context.amendments change with
    | some misuse => exact ⟨.fault, related⟩
    | none =>
      generalize pointer.route context.amendments = way at leads
      cases way with
      | nil =>
        have here : pointer.position registry = .object root := leads.eq_of_nothing
        rw [← here] at related
        refine ⟨.result related, ?_⟩
        rw [← here]
        exact related
      | cons access rest =>
        obtain ⟨edited, outcomes⟩ := leads.edit_concur related
        exact ⟨outcomes.mapError _, edited⟩

end Pointer

/-! Parcels, whose properties have other names in mappings than in objects. -/

namespace Parcels

def fullName : Field Schema where
  arrangement := .single (.scalar .string)
  name := "fullName"
  mappedKey := "full_name"

def person : Schema where
  id := 1
  name := "Person"
  recordType := "Person"
  typeProperty := "type"
  subtypes := []
  fields := [fullName]

def sentTo : Field Schema where
  arrangement := .array { content := .nested (.schema person) }
  name := "sentTo"
  mappedKey := "sent_to"

def parcel : Schema where
  id := 2
  name := "Parcel"
  recordType := "Parcel"
  typeProperty := "type"
  subtypes := []
  fields := [sentTo]

def container : Container where
  schema := parcel
  path := ""
  entries := Container.declaredEntries parcel
  place := some { ground := .schema parcel.id }

private theorem eq_of_addresses {schema : Schema} {only : Field Schema} (fields : schema.fields = [only])
    (plain : schema.subtypes = []) (addresses : schema.Addresses {} field) : field = only := by
  cases addresses with
  | own has =>
    cases has with
    | declared within =>
      rw [fields] at within
      exact List.mem_singleton.mp within
    | typeProperty polymorphic => simp [Schema.isPolymorphic, plain] at polymorphic
  | ofSubtype listed =>
    rw [plain] at listed
    cases listed

private theorem uniform_of_one {schema : Schema} {only : Field Schema} (fields : schema.fields = [only])
    (plain : schema.subtypes = []) : schema.Uniform {} where
  keys first second addresses others := by
    rw [eq_of_addresses fields plain addresses, eq_of_addresses fields plain others]
    simp
  positions first second addresses others _ := by
    rw [eq_of_addresses fields plain addresses, eq_of_addresses fields plain others]

private theorem person_or_parcel {schema : Schema} (contains : parcel.Contains {} schema) :
    schema = parcel ∨ schema = person := by
  induction contains with
  | self => exact .inl rfl
  | inside _ addresses nested ih =>
    rcases ih with rfl | rfl
    · obtain rfl := eq_of_addresses rfl rfl addresses
      cases nested
      exact .inr rfl
    · obtain rfl := eq_of_addresses rfl rfl addresses
      cases nested

theorem uniform (schema : Schema) (contains : parcel.Contains {} schema) : schema.Uniform {} := by
  rcases person_or_parcel contains with rfl | rfl
  · exact uniform_of_one rfl rfl
  · exact uniform_of_one rfl rfl

def mapping : Value :=
  .dict [("sentTo", .list [.object [("full_name", .text "Smith")]])]

def object : Value :=
  .object [("sent_to", .list [.dict [("fullName", .text "Smith")]])]

theorem mapping_as_object : Related {} (.object parcel) mapping object := by
  let smith (kind : Representation) : Value := kind.hold [(kind.keyOf fullName, .text "Smith")]
  have recipient : Related {} (.object person) (smith .object) (smith .dict) := by
    apply Related.objects
    · exact .unlike (by decide) rfl rfl
    · intro field addresses
      obtain rfl := eq_of_addresses rfl rfl addresses
      exact .same
  let sent (kind : Representation) (recipients : List Value) : Value := kind.hold [(kind.keyOf sentTo, .list recipients)]
  have whole : Related {} (.object parcel) (sent .dict [smith .object]) (sent .object [smith .dict]) := by
    apply Related.objects
    · exact .unlike (by decide) rfl rfl
    · intro field addresses
      obtain rfl := eq_of_addresses rfl rfl addresses
      exact .arrays_of_alike .list rfl (.cons recipient .nil)
  exact whole

end Parcels

namespace Pointer

theorem recipient_is_replaced_alike :
    let change : Edit := .replace (.text "Jones")
    ∃ pointer, (parse {} Parcels.container true (.text "/sentTo/0/fullName")).outcome = .ok pointer ∧
      pointer.get {} Parcels.mapping = .ok (.text "Smith") ∧
      Concur (Related {} (pointer.position {})) (pointer.get {} Parcels.mapping) (pointer.get {} Parcels.object) ∧
      Related {} (.object Parcels.parcel) (pointer.edit {} change Parcels.mapping).1
        (pointer.edit {} change Parcels.object).1 := by
  intro change
  have parsed : ∃ pointer, (parse {} Parcels.container true (.text "/sentTo/0/fullName")).outcome = .ok pointer ∧
      pointer.get {} Parcels.mapping = .ok (.text "Smith") := ⟨_, rfl, rfl⟩
  obtain ⟨pointer, parsed, held⟩ := parsed
  have distinct : Distinct (· = Parcels.parcel) := by
    rintro first second rfl rfl -
    rfl
  have into : Into {} (· = Parcels.parcel) Parcels.parcel pointer := .parsed Memory.genuine_of_empty rfl parsed
  obtain ⟨reads, -, edits⟩ := representations_are_interchangeable {} {} distinct rfl Parcels.uniform into
    Parcels.mapping_as_object
  exact ⟨pointer, parsed, held, reads, (edits change).2⟩

end Pointer
end RecordAddress
