import RecordAddress.Pointer.Access
import RecordAddress.Proofs.Orders
import RecordAddress.Proofs.Reached

/-! Direct reading, told without the way that is taken and how much of it is left. Reading through a pointer
finds what a record of mere data holds there, and is refused as the fault of the data where it holds nothing. -/

namespace RecordAddress
open Value

namespace Value

/-- Whether the value is mere data: neither a mark of absence nor something that points or describes. -/
def isData : Value → Bool
  | missing | location .. | pointer _ | description .. => false
  | _ => true

/-- What an object stores of a property, if the value is an object. -/
def stored? (field : Field Schema) : Value → Option (Option Value)
  | dict entries | view entries => some (Entries.find? field.name entries)
  | object attributes => some (Entries.find? field.mappedKey attributes)
  | _ => none

/-- What a collection stores of an element, if the value is a collection of the kind. -/
def element? (index : ElementIndex) (holder : Value) : Option (Option Value) :=
  match index with
  | .position index => holder.items?.map (·[index]?)
  | .key key => holder.entries?.map (Entries.find? key)
  | .afterLast => none

variable {holder value : Value} {field : Field Schema} {index : ElementIndex} {stored : Option Value}

theorem settled_of_stored? (has : holder.stored? field = some stored) :
    holder.isUnset = false ∧ holder.isMissing = false := by
  cases holder <;> first | exact ⟨rfl, rfl⟩ | cases has

theorem settled_of_element? (has : holder.element? index = some stored) :
    holder.isUnset = false ∧ holder.isMissing = false := by
  cases index <;> cases holder <;> first | exact ⟨rfl, rfl⟩ | cases has

theorem data_of_stored? (data : holder.throughout isData = true) (has : holder.stored? field = some (some value)) :
    value.throughout isData = true := by
  cases holder with
  | dict | view | object =>
    rw [throughout, Bool.and_eq_true] at data
    exact throughout_of_find? data.2 (Option.some.inj has)
  | _ => cases has

theorem data_of_element? (data : holder.throughout isData = true) (has : holder.element? index = some (some value)) :
    value.throughout isData = true := by
  cases index with
  | position index =>
    obtain ⟨items, shape, found⟩ := Option.map_eq_some_iff.mp has
    exact (allThroughout_iff items).mp (throughout_item shape data) value (List.mem_of_getElem? found)
  | key key =>
    obtain ⟨entries, shape, found⟩ := Option.map_eq_some_iff.mp has
    exact throughout_of_find? (throughout_entry shape data) found
  | afterLast => cases has

theorem present_of_data (data : value.throughout isData = true) : value.isMissing = false := by
  have check := check_of_throughout data
  cases value <;> first | rfl | cases check

end Value

namespace Access
variable {context : Context} {holder : Value} {target : Property} {index : ElementIndex} {stored : Option Value}

theorem read_stored (has : holder.stored? target.field = some stored) (depth : Nat) :
    (Pointer.accessOf {} target).read context depth holder =
      needProperty target.field.collection? depth (stored.getD .null) := by
  cases holder <;> cases has <;> rfl

theorem read_nothing_stored (data : holder.isData = true) (nothing : holder.stored? target.field = none) (depth : Nat) :
    (Pointer.accessOf {} target).read context depth holder = .error (.mismatch (.expected .object)) := by
  cases holder <;> first | rfl | (cases nothing; done) | cases data

theorem read_element (has : holder.element? index = some stored) (depth : Nat) :
    index.access.read context depth holder = needElement depth (stored.getD .missing) := by
  cases index with
  | position index =>
    obtain ⟨items, shape, rfl⟩ := Option.map_eq_some_iff.mp has
    rw [ElementIndex.access, read_position, shape]
  | key key =>
    obtain ⟨entries, shape, rfl⟩ := Option.map_eq_some_iff.mp has
    rw [ElementIndex.access, read_entry, shape]
  | afterLast => cases has

theorem read_no_element (nothing : holder.element? index = none) (inside : index ≠ .afterLast) (depth : Nat) :
    ∃ shape, index.access.read context depth holder = .error (.mismatch (.expected shape)) := by
  cases index with
  | position index =>
    refine ⟨.array, ?_⟩
    rw [ElementIndex.access, read_position, Option.map_eq_none_iff.mp nothing]
  | key key =>
    refine ⟨.map, ?_⟩
    rw [ElementIndex.access, read_entry, Option.map_eq_none_iff.mp nothing]
  | afterLast => exact absurd rfl inside

theorem read_element_of_made_up (index : ElementIndex) :
    index.access.read context 0 (emptyOf index.kind) = .ok .missing := by
  cases index <;> rfl

end Access

namespace Route
variable {context : Context}

/-- The record does not have what its schema says. -/
def Mismatched (outcome : Except Failure Value) : Prop :=
  ∃ depth mismatch, outcome = .error ⟨depth, .mismatch mismatch⟩

theorem read_step {access : Access} {rest : List Access} {holder value : Value}
    (reached : access.read context rest.length holder = .ok value) :
    read context (access :: rest) holder = read context rest value := by
  rw [read, reached]
  rfl

theorem read_last (last : Access) (holder : Value) :
    read context [last] holder = (last.read context 0 holder).mapError (Failure.mk 0) := by
  rw [read, List.length_nil]
  cases last.read context 0 holder <;> rfl

theorem mismatched_step {access : Access} {rest : List Access} {holder : Value} {mismatch : Mismatch}
    (refused : access.read context rest.length holder = .error (.mismatch mismatch)) :
    Mismatched (read context (access :: rest) holder) := by
  rw [read, refused]
  exact ⟨_, mismatch, rfl⟩

end Route

namespace Pointer

/-- What a record holds at a pointer. A property that is not stored is null and an element that is not
stored is missing, also in a collection that is null. Null and what is missing hold nothing. -/
def direct? (record : Value) : Pointer → Option Value
  | root _ => some record
  | property parent _ target _ => do
    let holder ← parent.direct? record
    let stored ← holder.stored? target.field
    return stored.getD .null
  | element parent _ index => do
    let collection ← parent.direct? record
    if collection.isUnset then return .missing
    let stored ← collection.element? index
    return stored.getD .missing

variable {registry : Registry} {memory : Memory} {container : Container} {parent pointer : Pointer} {token : String}
  {target : Property} {children : Option Container} {index : ElementIndex} {record value : Value}

theorem direct?_below_object {holder : Value} (above : parent.direct? record = some holder) :
    (property parent token target children).direct? record = (holder.stored? target.field).map (·.getD .null) := by
  rw [direct?, above, Option.bind_eq_bind, Option.bind_some]
  cases holder.stored? target.field <;> rfl

theorem direct?_in_collection {collection : Value} (above : parent.direct? record = some collection)
    (isSet : collection.isUnset = false) :
    (element parent token index).direct? record = (collection.element? index).map (·.getD .missing) := by
  rw [direct?, above, Option.bind_eq_bind, Option.bind_some, isSet]
  cases collection.element? index <;> rfl

theorem direct?_property :
    (property parent token target children).direct? record = some value ↔
      ∃ holder stored, parent.direct? record = some holder ∧ holder.stored? target.field = some stored ∧
        stored.getD .null = value := by
  simp only [direct?, Option.bind_eq_bind, Option.bind_eq_some_iff, Option.pure_def, Option.some.injEq, exists_and_left]

theorem direct?_element :
    (element parent token index).direct? record = some value ↔
      (parent.direct? record = some .null ∧ value = .missing) ∨
      ∃ collection stored, parent.direct? record = some collection ∧ collection.element? index = some stored ∧
        stored.getD .missing = value := by
  simp only [direct?, Option.bind_eq_bind, Option.bind_eq_some_iff, Option.pure_def]
  constructor
  · rintro ⟨collection, above, here⟩
    cases unset : collection.isUnset with
    | true =>
      obtain rfl := Access.null_of_isUnset unset
      exact .inl ⟨above, (Option.some.inj here).symm⟩
    | false =>
      simp only [unset, Bool.false_eq_true, ite_false, Option.bind_eq_some_iff, Option.some.injEq] at here
      obtain ⟨stored, has, same⟩ := here
      exact .inr ⟨collection, stored, above, has, same⟩
  · rintro (⟨above, rfl⟩ | ⟨collection, stored, above, has, same⟩)
    · exact ⟨.null, above, rfl⟩
    · refine ⟨collection, above, ?_⟩
      rw [(settled_of_element? has).1, if_neg Bool.false_ne_true, has]
      exact congrArg some same

theorem route_of_element : (element parent token index).route {} = parent.route {} ++ [index.access] := by
  simp [route, elementAccess]

/-- What is at a pointer is data, or the mark of an element that is not there. -/
theorem direct?_is_data (data : record.throughout isData = true) (reads : pointer.direct? record = some value) :
    value.throughout isData = true ∨ (value = .missing ∧ pointer.isElement = true) := by
  induction pointer generalizing value with
  | root =>
    obtain rfl := Option.some.inj reads
    exact .inl data
  | property parent token target children ih =>
    obtain ⟨holder, stored, above, has, rfl⟩ := direct?_property.mp reads
    cases stored with
    | none => exact .inl rfl
    | some stored =>
      rcases ih above with holds | ⟨rfl, -⟩
      · exact .inl (data_of_stored? holds has)
      · cases has
  | element parent token index ih =>
    rcases direct?_element.mp reads with ⟨-, rfl⟩ | ⟨collection, stored, above, has, rfl⟩
    · exact .inr ⟨rfl, rfl⟩
    · cases stored with
      | none => exact .inr ⟨rfl, rfl⟩
      | some stored =>
        rcases ih above with holds | ⟨rfl, -⟩
        · exact .inl (data_of_element? holds has)
        · cases index <;> cases has

/-- A way goes on from a value that is set as it would from that value alone. -/
theorem read_through (reads : pointer.direct? record = some value)
    (settled : value.isUnset = false ∧ value.isMissing = false) (below : List Access) :
    Route.read { registry, memory } (pointer.route {} ++ below) record = Route.read { registry, memory } below value := by
  induction pointer generalizing value below with
  | root =>
    obtain rfl := Option.some.inj reads
    rfl
  | property parent token target children ih =>
    obtain ⟨holder, stored, above, has, rfl⟩ := direct?_property.mp reads
    rw [route, List.append_assoc, ih above (settled_of_stored? has)]
    apply Route.read_step
    rw [Access.read_stored has]
    unfold Access.needProperty
    rw [settled.1, Bool.and_false]
    rfl
  | element parent token index ih =>
    rcases direct?_element.mp reads with ⟨-, rfl⟩ | ⟨collection, stored, above, has, rfl⟩
    · cases settled.2
    · rw [route_of_element, List.append_assoc, ih above (settled_of_element? has)]
      apply Route.read_step
      rw [Access.read_element has]
      exact Access.needElement_eq_ok.mpr ⟨rfl, fun _ => settled⟩

private theorem need_of_unset {collection : Option Collection} {depth : Nat} {found : Value} (unset : found.isUnset = true)
    (deep : 1 ≤ depth) (single : depth = 1 → collection = none) :
    Access.needProperty collection depth found = .error (.mismatch .unset) := by
  unfold Access.needProperty
  rw [unset, Bool.and_true, if_pos (by simpa using Nat.ne_of_gt deep)]
  cases collection with
  | none => rfl
  | some kind =>
    apply if_neg
    intro last
    cases single last

private theorem need_of_nothing {depth : Nat} {found : Value} (deep : 1 ≤ depth)
    (nothing : found.isUnset = true ∨ found.isMissing = true) :
    Access.needElement depth found = .error (.mismatch .unset) := by
  unfold Access.needElement
  apply if_pos
  rcases nothing with unset | missing
  · simp [unset, Nat.ne_of_gt deep]
  · simp [missing, Nat.ne_of_gt deep]

/-- No way goes on from nothing, but for the elements of a collection that is null. -/
theorem mismatched_below_nothing (reached : Reached container pointer) (notRoot : pointer.isRoot = false)
    (data : record.throughout isData = true) (reads : pointer.direct? record = some value)
    (nothing : value.isUnset = true ∨ value.isMissing = true) {below : List Access} (deep : 1 ≤ below.length)
    (single : below.length = 1 → ∀ parent token target children, pointer = .property parent token target children →
      target.field.collection? = none) :
    Route.Mismatched (Route.read { registry, memory } (pointer.route {} ++ below) record) := by
  induction reached generalizing value below with
  | root => cases notRoot
  | @extend _ _ _ _ parent child _ above extended ih =>
    have reached := above.extend extended
    obtain ⟨rfl, -, -⟩ := parent_of_extend extended
    cases child with
    | root => cases notRoot
    | property parent token target children =>
      obtain ⟨holder, stored, aboveReads, has, rfl⟩ := direct?_property.mp reads
      have unset : (stored.getD .null).isUnset = true := by
        rcases nothing with unset | missing
        · exact unset
        · have holds := (direct?_is_data data reads).resolve_right (by simp [isElement])
          rw [present_of_data holds] at missing
          cases missing
      rw [route, List.append_assoc, read_through aboveReads (settled_of_stored? has)]
      apply Route.mismatched_step
      rw [Access.read_stored has]
      exact need_of_unset unset deep fun last => single last _ _ _ _ rfl
    | element parent token index =>
      obtain ⟨grandparent, token, target, children, rfl, -⟩ := reached.below_collection
      rw [route_of_element, List.append_assoc]
      rcases direct?_element.mp reads with ⟨aboveReads, rfl⟩ | ⟨collection, stored, aboveReads, has, rfl⟩
      · apply ih rfl aboveReads (.inl rfl)
        · simp
        · intro last
          simp only [List.cons_append, List.nil_append, List.length_cons] at last
          omega
      · rw [read_through aboveReads (settled_of_element? has)]
        apply Route.mismatched_step
        rw [Access.read_element has]
        exact need_of_nothing deep nothing

/-- Properties stand below objects, so that what is above them is no collection. -/
theorem Reached.property_below_single {target : Property} {children : Option Container}
    (reached : Reached container (.property parent token target children)) {above : Pointer} {last : String}
    {outer : Property} {inner : Option Container} (same : parent = .property above last outer inner) :
    outer.field.collection? = none := by
  cases reached with
  | extend _ extended =>
    rcases extend_eq_ok.mp extended with ⟨_, -, -, other⟩ | ⟨-, other⟩ | ⟨_, _, _, awaited, -, here⟩
    · cases other
    · cases other
    · cases here
      subst same
      simp only [next, Amendments.collection?_unchanged] at awaited
      split at awaited
      · cases awaited
      · cases awaited
      · assumption

/-- No way goes on by a property where there is no object that could store it. -/
theorem mismatched_without_object {holder : Value} (reached : Reached container (.property parent token target children))
    (above : Reached container parent) (data : record.throughout isData = true) (reads : parent.direct? record = some holder)
    (noObject : holder.stored? target.field = none) (below : List Access) :
    Route.Mismatched (Route.read { registry, memory } (parent.route {} ++ accessOf {} target :: below) record) := by
  rcases direct?_is_data data reads with holds | ⟨rfl, isElement⟩
  · cases isRoot : parent.isRoot with
    | true =>
      obtain ⟨_, rfl⟩ : ∃ container, parent = .root container := by cases parent <;> first | exact ⟨_, rfl⟩ | cases isRoot
      obtain rfl := Option.some.inj reads
      exact Route.mismatched_step (Access.read_nothing_stored (check_of_throughout holds) noObject _)
    | false =>
      cases unset : holder.isUnset with
      | true =>
        apply mismatched_below_nothing above isRoot data reads (.inl unset) (by simp)
        rintro - _ _ _ _ rfl
        exact reached.property_below_single rfl
      | false =>
        rw [read_through reads ⟨unset, present_of_data holds⟩]
        exact Route.mismatched_step (Access.read_nothing_stored (check_of_throughout holds) noObject _)
  · -- an element that is not there is no object, and no collection of elements either
    have notRoot : parent.isRoot = false := by cases parent <;> first | rfl | cases isElement
    apply mismatched_below_nothing above notRoot data reads (.inr rfl) (by simp)
    rintro - _ _ _ _ rfl
    cases isElement

/-- Where nothing is told of a pointer, no way takes it. -/
theorem mismatched_of_nothing (reached : Reached container pointer) (notDash : pointer.isDash = false)
    (data : record.throughout isData = true) (nothing : pointer.direct? record = none) (below : List Access) :
    Route.Mismatched (Route.read { registry, memory } (pointer.route {} ++ below) record) := by
  induction reached generalizing below with
  | root => cases nothing
  | @extend _ _ _ _ parent child _ above extended ih =>
    have reached := above.extend extended
    obtain ⟨rfl, -, parentNoDash⟩ := parent_of_extend extended
    cases child with
    | root => cases nothing
    | property parent token target children =>
      rw [route, List.append_assoc]
      cases aboveReads : parent.direct? record with
      | none => exact ih parentNoDash aboveReads _
      | some holder =>
        have noObject := Option.map_eq_none_iff.mp ((direct?_below_object aboveReads).symm.trans nothing)
        exact mismatched_without_object reached above data aboveReads noObject below
    | element parent token index =>
      rw [route_of_element, List.append_assoc]
      obtain ⟨grandparent, token, target, children, rfl, -⟩ := reached.below_collection
      cases aboveReads : (property grandparent token target children).direct? record with
      | none => exact ih parentNoDash aboveReads _
      | some collection =>
        have holds := (direct?_is_data data aboveReads).resolve_right (by simp [isElement])
        cases unset : collection.isUnset with
        | true =>
          obtain rfl := Access.null_of_isUnset unset
          rw [direct?_element.mpr (.inl ⟨aboveReads, rfl⟩)] at nothing
          cases nothing
        | false =>
          have noElement := Option.map_eq_none_iff.mp ((direct?_in_collection aboveReads unset).symm.trans nothing)
          have inside : index ≠ .afterLast := by
            rintro rfl
            cases notDash
          rw [read_through aboveReads ⟨unset, present_of_data holds⟩]
          obtain ⟨shape, refused⟩ := Access.read_no_element noElement inside _
          exact Route.mismatched_step refused

/-- What is told of a pointer is read at the end of its way. -/
theorem read_of_direct? (reached : Reached container pointer) (reads : pointer.direct? record = some value) :
    Route.read { registry, memory } (pointer.route {}) record = .ok value := by
  cases pointer with
  | root =>
    obtain rfl := Option.some.inj reads
    rfl
  | property parent token target children =>
    obtain ⟨holder, stored, above, has, rfl⟩ := direct?_property.mp reads
    rw [route, read_through above (settled_of_stored? has)]
    apply Route.read_step
    exact Access.read_stored has 0
  | element parent token index =>
    rw [route_of_element]
    rcases direct?_element.mp reads with ⟨above, rfl⟩ | ⟨collection, stored, above, has, rfl⟩
    · -- the collection is null, and an empty one stands in for it
      obtain ⟨grandparent, token, target, children, rfl, kind⟩ := reached.below_collection
      obtain ⟨holder, stored, higher, has, null⟩ := direct?_property.mp above
      rw [route, List.append_assoc, read_through higher (settled_of_stored? has)]
      have madeUp : (accessOf {} target).read { registry, memory } 1 holder = .ok (Access.emptyOf index.kind) := by
        rw [Access.read_stored has, null, kind]
        rfl
      have missing : index.access.read { registry, memory } 0 (Access.emptyOf index.kind) = .ok .missing :=
        Access.read_element_of_made_up index
      exact (Route.read_step madeUp).trans (Route.read_step missing)
    · rw [read_through above (settled_of_element? has)]
      apply Route.read_step
      exact Access.read_element has 0

/-- Reading through a pointer other than a dash gives what a record of mere data holds there: the value, null
for a property that is not stored, and the mark of absence for an element that is not stored or whose
collection is null. In all other cases it is refused as a fault of the data. -/
theorem get_is_direct_reading (registry : Registry) (memory : Memory) {container : Container} {pointer : Pointer}
    {record : Value} (reached : Reached container pointer) (notDash : pointer.isDash = false)
    (data : record.throughout isData = true) :
    match pointer.direct? record with
    | some value => pointer.get { registry, memory } record = .ok value
    | none => ∃ fault, pointer.get { registry, memory } record = .error (.data fault) := by
  cases reads : pointer.direct? record with
  | some value => exact mapError_eq_ok.mpr (read_of_direct? reached reads)
  | none =>
    have refused : Route.Mismatched (Route.read { registry, memory } (pointer.route {} ++ []) record) :=
      mismatched_of_nothing reached notDash data reads []
    rw [List.append_nil] at refused
    obtain ⟨depth, mismatch, refused⟩ := refused
    exact ⟨_, mapError_eq_error.mpr ⟨_, refused, rfl⟩⟩

theorem opener_is_read_directly :
    let context : Context := { registry := Orders.registry }
    let record : Value := .object [("events", .tuple [.dict [("kind", .text "OPENED"), ("byWho", .text "Smith")]])]
    ∃ pointer, (parse context Orders.container true (.text "/events/0/OPENED:byWho")).outcome = .ok pointer ∧
      pointer.isDash = false ∧ record.throughout isData = true ∧ pointer.get context record = .ok (.text "Smith") := by
  intro context record
  have parsed : ∃ pointer, (parse context Orders.container true (.text "/events/0/OPENED:byWho")).outcome = .ok pointer ∧
      pointer.isDash = false ∧ pointer.direct? record = some (.text "Smith") := ⟨_, rfl, rfl, rfl⟩
  obtain ⟨pointer, parsed, notDash, held⟩ := parsed
  have data : record.throughout isData = true := rfl
  have read := get_is_direct_reading Orders.registry {} (reached_of_parse parsed) notDash data
  rw [held] at read
  exact ⟨pointer, parsed, notDash, data, read⟩

end Pointer
end RecordAddress
