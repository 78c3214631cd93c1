import RecordAddress.Proofs.Elsewhere
import RecordAddress.Proofs.Representations

/-! What is read in a record and then changed inside. Mappings, sequences, objects and locations keep what is changed
inside of them, so that it is read again. Pointers and what they show of their schema do not: they make up anew what is
read of them. -/

namespace RecordAddress
open Value

namespace Value

/-- Whether the value holds others and keeps what is changed inside of them. -/
def isHolder : Value → Bool
  | list _ | tuple _ | dict _ | view _ | object _ | location .. => true
  | _ => false

variable {value : Value}

theorem own_of_holder (holder : value.isHolder = true) : value.isOwn = true := by
  cases value <;> first | rfl | cases holder

theorem set_of_holder (holder : value.isHolder = true) : value.isUnset = false ∧ value.isMissing = false := by
  cases value <;> first | exact ⟨rfl, rfl⟩ | cases holder

end Value

namespace Access
variable {registry : Registry} {memory : Memory} {access : Access} {holder part later : Value} {depth : Nat}

/-- What is read of a part of the record depends on the record alone. -/
theorem read_own (own : holder.isOwn = true) :
    access.read { registry, memory } depth holder = access.read {} depth holder := by
  cases access with
  | property name mappedKey =>
    cases holder with
    | pointer | description => cases own
    | _ => rfl
  | _ => rfl

theorem isUnsetIn_own (own : holder.isOwn = true) :
    access.isUnsetIn { registry, memory } holder = access.isUnsetIn {} holder := by
  cases access with
  | property name mappedKey =>
    cases holder with
    | pointer | description => cases own
    | _ => rfl
  | _ => rfl

/-- The part is what the step finds, however much of the way is left after it. -/
def Finds (access : Access) (holder part : Value) : Prop :=
  ∀ depth, access.read {} depth holder = .ok part

theorem Finds.isSet (finds : access.Finds holder part) : access.isUnsetIn {} holder = false := by
  rcases read_below (finds 2) with ⟨isSet, -⟩ | ⟨-, last, -⟩
  · exact isSet
  · cases last

theorem finds_property {name mappedKey : Label} {collection : Option Collection} (present : part.isUnset = false) :
    (property name mappedKey collection).Finds holder part ↔ readProperty {} name mappedKey holder = .ok part := by
  have settled (depth : Nat) : needProperty collection depth part = .ok part := by simp [needProperty, present]
  constructor
  · intro finds
    have read := finds 0
    simp only [Access.read, bind_eq_ok] at read
    obtain ⟨found, reached, same⟩ := read
    cases same
    exact reached
  · intro read depth
    simp only [Access.read, read]
    exact settled depth

theorem finds_position {index : Nat} (present : part.isUnset = false) (there : part.isMissing = false) :
    (position index).Finds holder part ↔ ∃ items, holder.items? = some items ∧ items[index]? = some part := by
  constructor
  · intro finds
    have read := finds 1
    rw [read_position] at read
    split at read
    next items shape => exact ⟨items, shape, stored_element read⟩
    next => cases read
  · rintro ⟨items, shape, found⟩ depth
    rw [read_position, shape]
    exact needElement_eq_ok.mpr ⟨by simp [found], fun _ => ⟨present, there⟩⟩

theorem finds_entry {key : String} (present : part.isUnset = false) (there : part.isMissing = false) :
    (entry key).Finds holder part ↔ ∃ entries, holder.entries? = some entries ∧ Entries.find? key entries = some part := by
  constructor
  · intro finds
    have read := finds 1
    rw [read_entry] at read
    split at read
    next entries shape => exact ⟨entries, shape, stored_element read⟩
    next => cases read
  · rintro ⟨entries, shape, found⟩ depth
    rw [read_entry, shape]
    exact needElement_eq_ok.mpr ⟨by simp [found], fun _ => ⟨present, there⟩⟩

private theorem element_at_every_depth {found : Value} (settled : needElement (depth + 1) found = .ok part) (later : Nat) :
    needElement later found = .ok part := by
  obtain ⟨same, isSet⟩ := needElement_eq_ok.mp settled
  exact needElement_eq_ok.mpr ⟨same, fun _ => isSet (by simp)⟩

/-- A step that reads something to go on from reads it whatever is left of the way. -/
theorem read_at_every_depth {context : Context} (isSet : access.isUnsetIn context holder = false)
    (read : access.read context (depth + 1) holder = .ok part) (later : Nat) : access.read context later holder = .ok part := by
  rcases read_below read with ⟨-, shallow, present⟩ | ⟨isUnset, -⟩
  · cases access with
    | property name mappedKey collection =>
      simp only [Access.read, bind_eq_ok] at shallow
      obtain ⟨found, reached, same⟩ := shallow
      cases same
      simp only [Access.read, reached]
      exact if_neg (by simp [present])
    | position index =>
      rw [read_position] at read ⊢
      split at read
      next items shape => exact element_at_every_depth read later
      next => cases read
    | afterLast => exact read
    | entry key =>
      rw [read_entry] at read ⊢
      split at read
      next entries shape => exact element_at_every_depth read later
      next => cases read
    | noEntry =>
      rw [read_noEntry] at read
      split at read
      · cases read
      · cases read
  · cases isUnset.symm.trans isSet

theorem finds_of_read (isSet : access.isUnsetIn {} holder = false)
    (read : access.read {} (depth + 1) holder = .ok part) : access.Finds holder part :=
  read_at_every_depth isSet read

theorem finds_of_shallow (read : access.read {} 0 holder = .ok part) (kept : part.isHolder = true) :
    access.Finds holder part := by
  obtain ⟨present, there⟩ := set_of_holder kept
  have stored {found : Option Value} (same : needElement 0 (found.getD .missing) = .ok part) : found = some part := by
    cases found with
    | some value => exact congrArg some (Except.ok.inj same)
    | none =>
      cases same
      cases there
  cases access with
  | property name mappedKey collection =>
    simp only [Access.read, bind_eq_ok] at read
    obtain ⟨found, reached, same⟩ := read
    cases same
    exact (finds_property present).mpr reached
  | position index =>
    rw [read_position] at read
    split at read
    next items shape => exact (finds_position present there).mpr ⟨items, shape, stored read⟩
    next => cases read
  | afterLast =>
    cases read
    cases kept
  | entry key =>
    rw [read_entry] at read
    split at read
    next entries shape => exact (finds_entry present there).mpr ⟨entries, shape, stored read⟩
    next => cases read
  | noEntry =>
    rw [read_noEntry] at read
    split at read
    · cases read
      cases kept
    · cases read

private theorem ofLocation_not_holder (key : String) : (({} : Context).ofLocation key).isHolder = false := by
  unfold Context.ofLocation
  split <;> rfl

theorem find?_put_getD (key : String) (later : Value) (entries : Entries Value) :
    (Entries.find? key (Entries.put key later entries)).getD .null = later := by
  rw [Entries.find?_put, if_pos rfl, Option.getD_some]

theorem attributeAt_put {tokens : Value} {attributes : Entries Value} {key : String} (path : key ≠ pathKey)
    (parts : key ≠ tokensKey) (later : Value) :
    (location tokens (Entries.put key later attributes)).attributeAt {} key = .ok later := by
  simp [attributeAt, path, parts, Entries.find?_put]

/-- A location keeps its tokens and what was set on it. What all locations have holds nothing. -/
private theorem location_keeps {tokens : Value} {attributes : Entries Value} {key : String}
    (read : (location tokens attributes).attributeAt {} key = .ok part) (before : part.isHolder = true) (later : Value) :
    ∃ otherTokens others, (location tokens attributes).keepAttribute key later = location otherTokens others ∧
      (location otherTokens others).attributeAt {} key = .ok later := by
  simp only [attributeAt, Except.ok.injEq] at read
  by_cases path : key = pathKey
  · rw [if_pos path] at read
    subst read
    cases before
  by_cases parts : key = tokensKey
  · subst parts
    exact ⟨later, attributes, rfl, rfl⟩
  rw [if_neg path, if_neg parts] at read
  have known : Entries.contains key attributes = true := by
    cases found : Entries.find? key attributes with
    | some value => simp [Entries.contains, found]
    | none =>
      rw [found, Option.getD_none] at read
      rw [← read, ofLocation_not_holder] at before
      cases before
  refine ⟨tokens, Entries.put key later attributes, ?_, attributeAt_put path parts later⟩
  simp [keepAttribute, path, parts, known]

private theorem property_keeps {name mappedKey : Label} {collection : Option Collection} (own : holder.isOwn = true)
    (read : readProperty {} name mappedKey holder = .ok part) (before : part.isHolder = true) (later : Value) :
    holder.isHolder = true ∧ ((property name mappedKey collection).absorb later holder).isHolder = true ∧
      readProperty {} name mappedKey ((property name mappedKey collection).absorb later holder) = .ok later := by
  cases holder with
  | dict entries | view entries =>
    cases name with
    | text name => exact ⟨rfl, rfl, congrArg Except.ok (find?_put_getD name later entries)⟩
    | other =>
      cases read
      cases before
    | unusable => cases read
  | object attributes =>
    cases mappedKey with
    | text key => cases name <;> exact ⟨rfl, rfl, congrArg Except.ok (find?_put_getD key later attributes)⟩
    | other | unusable => cases read
  | location tokens attributes =>
    cases mappedKey with
    | text key =>
      obtain ⟨otherTokens, others, kept, found⟩ := location_keeps (attempt_eq_ok.mp read) before later
      have absorbed : (property name (.text key) collection).absorb later (location tokens attributes) =
          location otherTokens others := by cases name <;> exact kept
      rw [absorbed]
      exact ⟨rfl, rfl, attempt_eq_ok.mpr found⟩
    | other | unusable => cases read
  | missing =>
    cases mappedKey with
    | text =>
      cases read
      cases before
    | other | unusable => cases read
  | pointer | description => cases own
  | _ => cases read

/-- What a holder keeps of a part that has changed inside is read of it again. -/
theorem Finds.absorb (own : holder.isOwn = true) (finds : access.Finds holder part) (before : part.isHolder = true)
    (kept : later.isHolder = true) :
    holder.isHolder = true ∧ (access.absorb later holder).isHolder = true ∧
      access.Finds (access.absorb later holder) later := by
  obtain ⟨present, there⟩ := set_of_holder before
  obtain ⟨stillPresent, stillThere⟩ := set_of_holder kept
  cases access with
  | property name mappedKey collection =>
    rw [finds_property present] at finds
    rw [finds_property stillPresent]
    exact property_keeps own finds before later
  | position index =>
    obtain ⟨items, shape, found⟩ := (finds_position present there).mp finds
    rw [finds_position stillPresent stillThere]
    have inside : index < items.length := (List.getElem?_eq_some_iff.mp found).1
    cases holder with
    | list | tuple =>
      cases shape
      exact ⟨rfl, rfl, _, rfl, by simp [inside]⟩
    | _ => cases shape
  | afterLast =>
    cases finds 0
    cases before
  | entry key =>
    obtain ⟨entries, shape, found⟩ := (finds_entry present there).mp finds
    rw [finds_entry stillPresent stillThere]
    cases holder with
    | dict | view =>
      cases shape
      exact ⟨rfl, rfl, _, rfl, by simp [Entries.find?_put]⟩
    | _ => cases shape
  | noEntry =>
    have read := finds 1
    rw [read_noEntry] at read
    split at read <;> cases read

/-- What was written to a property is read of it again. -/
theorem property_of_write {name mappedKey : Label} {collection : Option Collection} {stored : Value}
    (own : holder.isOwn = true) (given : change.value? = some later)
    (written : (property name mappedKey collection).write change holder = .ok stored) :
    holder.isHolder = true ∧ stored.isHolder = true ∧ readProperty {} name mappedKey stored = .ok later := by
  cases (write_eq_ok own).mp written with
  | put same =>
    cases given.symm.trans same
    exact ⟨rfl, rfl, congrArg Except.ok (find?_put_getD _ later _)⟩
  | erased removed | nowhere removed =>
    subst removed
    cases given
  | set =>
    rw [given]
    exact ⟨rfl, rfl, congrArg Except.ok (find?_put_getD _ later _)⟩
  | tokens =>
    rw [given]
    exact ⟨rfl, rfl, rfl⟩
  | further path parts =>
    rw [given]
    exact ⟨rfl, rfl, attempt_eq_ok.mpr (attributeAt_put path parts later)⟩

theorem finds_of_write {name mappedKey : Label} {collection : Option Collection} {stored : Value}
    (own : holder.isOwn = true)
    (written : (property name mappedKey collection).write (.replace later) holder = .ok stored) (kept : later.isHolder = true) :
    holder.isHolder = true ∧ stored.isHolder = true ∧ (property name mappedKey collection).Finds stored later := by
  rw [finds_property (set_of_holder kept).1]
  exact property_of_write own rfl written

end Access

namespace Route
variable {registry : Registry} {memory : Memory} {change : Edit} {access next : Access} {rest way : List Access}
  {holder part record value : Value}

/-- A way through parts of the record, and the value at its end. A property there may be unset. -/
inductive Along : List Access → Value → Value → Prop
  | here {value : Value} : Along [] value value
  | step {access : Access} {way : List Access} {holder part value : Value} : holder.isOwn = true →
      access.Finds holder part → Along way part value → Along (access :: way) holder value
  | unset {name mappedKey : Label} {collection : Option Collection} {holder : Value} : holder.isOwn = true →
      Access.readProperty {} name mappedKey holder = .ok .null →
      Along [.property name mappedKey collection] holder .null

theorem Along.read (along : Along way record value) (registry : Registry) (memory : Memory) :
    read { registry, memory } way record = .ok value := by
  induction along with
  | here => rfl
  | step own finds _ ih => exact (read_step ((Access.read_own own).trans (finds _))).trans ih
  | @unset name mappedKey collection holder own isUnset =>
    have read : (Access.property name mappedKey collection).read {} 0 holder = .ok .null := by
      simp only [Access.read, isUnset]
      rfl
    exact read_step ((Access.read_own own).trans read)

theorem exists_first (way : List Access) (next : Access) (below : List Access) :
    ∃ access rest, way ++ next :: below = access :: rest :=
  List.exists_cons_of_ne_nil (List.append_ne_nil_of_right_ne_nil way (List.cons_ne_nil next below))

/-- Nothing stands in for what is above a property. -/
theorem set_above {context : Context} {above : List Access} (single : ∀ last ∈ (access :: above).getLast?, last.collection? = none)
    (reached : access.read context (above.length + 1) record = .ok part) : access.isUnsetIn context record = false := by
  rcases Access.read_below reached with ⟨isSet, -⟩ | ⟨-, last, _, _, kind, rfl, -⟩
  · exact isSet
  · obtain rfl := List.eq_nil_of_length_eq_zero last
    cases single _ rfl

theorem single_below {above : List Access} (single : ∀ last ∈ (access :: above).getLast?, last.collection? = none) :
    ∀ last ∈ above.getLast?, last.collection? = none := by
  intro last within
  apply single
  cases above with
  | nil => cases within
  | cons => simpa using within

/-- A way that can be read leads through parts of the record if it meets nothing but such, and no collection that
stands in for one that is unset. -/
theorem along_of_read {above : List Access} {name mappedKey : Label} {collection : Option Collection}
    (got : read { registry, memory } (above ++ [.property name mappedKey collection]) record = .ok value)
    (array : value = .null ∨ ∃ items, value = .list items)
    (own : ∀ met ∈ trace { registry, memory } (above ++ [.property name mappedKey collection]) record, met.isOwn = true)
    (single : ∀ last ∈ above.getLast?, last.collection? = none) :
    Along (above ++ [.property name mappedKey collection]) record value := by
  induction above generalizing record with
  | nil =>
    have ownRecord : record.isOwn = true := own record (by rw [List.nil_append, trace]; split <;> exact List.mem_cons_self)
    have shallow : (Access.property name mappedKey collection).read {} 0 record = .ok value := by
      rwa [List.nil_append, read_last, mapError_eq_ok, Access.read_own ownRecord] at got
    rcases array with rfl | ⟨items, rfl⟩
    · simp only [Access.read, bind_eq_ok] at shallow
      obtain ⟨_, isUnset, same⟩ := shallow
      cases same
      exact .unset ownRecord isUnset
    · exact .step ownRecord (Access.finds_of_shallow shallow rfl) .here
  | cons access above ih =>
    simp only [List.cons_append, read, bind_eq_ok, mapError_eq_ok] at got
    obtain ⟨part, reached, got⟩ := got
    rw [List.cons_append, trace, reached] at own
    obtain ⟨ownRecord, ownBelow⟩ := List.forall_mem_cons.mp own
    rw [Access.read_own ownRecord, List.length_append, List.length_singleton] at reached
    exact .step ownRecord (Access.finds_of_read (set_above single reached) reached) (ih got ownBelow (single_below single))

/-- Below a part of the record that is found, an edit is made in that part, and what becomes of it is kept. -/
theorem edit_below (own : holder.isOwn = true) (finds : access.Finds holder part) :
    edit { registry, memory } change access (next :: rest) holder =
      (access.absorb (edit { registry, memory } change next rest part).1 holder,
        (edit { registry, memory } change next rest part).2) := by
  have read : access.read { registry, memory } (rest.length + 1) holder = .ok part :=
    (Access.read_own own).trans (finds _)
  exact edit_of_set read ((Access.isUnsetIn_own own).trans finds.isSet)

end Route
end RecordAddress
