import RecordAddress.Pointer.Access
import RecordAddress.Proofs.Reading
import RecordAddress.Proofs.RecordData

/-! Inert records, which show nothing of any schema. Neither what is registered nor what has been opened makes
a difference to reading and editing them. -/

namespace RecordAddress
open Value

namespace Value

/-- Whether nothing but operations of other objects is described by the value. -/
def isInert : Value → Bool
  | pointer _ | description (.property _) _ | description (.container _) _ | description (.schema _) _
  | description (.settings _) _ | description (.options _) _ | description .settingsMaker _
  | description (.style _) _ | description (.defaultStyle _) _ | description (.valueType _) _
  | description (.collection _) _ => false
  | _ => true

def Inert (value : Value) : Prop :=
  value.throughout isInert = true

variable {holder value : Value} {key : String} {items : List Value} {entries : Entries Value}

theorem inert_null : null.Inert := rfl

theorem inert_missing : missing.Inert := rfl

theorem inert_items (shape : holder.items? = some items) :
    holder.Inert ↔ ∀ item ∈ items, item.Inert := by
  cases holder <;> cases shape
  all_goals
    rw [Inert, throughout, Bool.and_eq_true, allThroughout_iff]
    exact and_iff_right rfl

theorem inert_entries (shape : holder.entries? = some entries) :
    holder.Inert ↔ ∀ entry ∈ entries, entry.2.Inert := by
  cases holder <;> cases shape
  all_goals
    rw [Inert, throughout, Bool.and_eq_true, entriesThroughout_iff]
    exact and_iff_right rfl

theorem inert_object : (object entries).Inert ↔ ∀ entry ∈ entries, entry.2.Inert := by
  rw [Inert, throughout, Bool.and_eq_true, entriesThroughout_iff]
  exact and_iff_right rfl

theorem inert_location {tokens : Value} :
    (location tokens entries).Inert ↔ tokens.Inert ∧ ∀ entry ∈ entries, entry.2.Inert := by
  rw [Inert, throughout, Bool.and_eq_true, Bool.and_eq_true, entriesThroughout_iff]
  exact and_iff_right rfl

theorem inert_found {absent : Value} (inert : ∀ entry ∈ entries, entry.2.Inert) (none : absent.Inert) (key : String) :
    ((Entries.find? key entries).getD absent).Inert := by
  cases found : Entries.find? key entries with
  | none => exact none
  | some stored => exact inert _ (Entries.mem_of_find? found)

theorem inert_put (inert : ∀ entry ∈ entries, entry.2.Inert) (given : value.Inert) (key : String) :
    ∀ entry ∈ Entries.put key value entries, entry.2.Inert := by
  intro entry within
  rcases Entries.eq_or_mem_of_put within with rfl | before
  · exact given
  · exact inert entry before

theorem inert_ofList {pairs : List (String × Value)} (inert : ∀ pair ∈ pairs, pair.2.Inert) :
    ∀ entry ∈ Entries.ofList pairs, entry.2.Inert := by
  suffices step : ∀ entries : Entries Value, (∀ entry ∈ entries, entry.2.Inert) →
      ∀ entry ∈ pairs.foldl (fun entries pair => Entries.put pair.1 pair.2 entries) entries, entry.2.Inert from step [] nofun
  induction pairs with
  | nil => exact fun _ before => before
  | cons pair rest ih =>
    intro entries before
    have later := ih fun other within => inert other (List.mem_cons_of_mem _ within)
    exact later (Entries.put pair.1 pair.2 entries) (inert_put before (inert pair List.mem_cons_self) pair.1)

theorem inert_set : (set items).Inert ↔ ∀ item ∈ items, item.Inert := by
  rw [Inert, throughout, Bool.and_eq_true, allThroughout_iff]
  exact and_iff_right rfl

theorem inert_setOf (inert : ∀ item ∈ items, item.Inert) : (setOf items).Inert := by
  obtain ⟨members, same, within⟩ := setOf_members items
  rw [same]
  exact inert_set.mpr fun member inside => inert member (within member inside)

theorem inert_ofLocation (given : Location) : (ofLocation given).Inert := by
  refine inert_location.mpr ⟨(inert_items rfl).mpr ?_, nofun⟩
  intro token within
  obtain ⟨text, -, rfl⟩ := List.mem_map.mp within
  rfl

theorem inert_erase (inert : ∀ entry ∈ entries, entry.2.Inert) (key : String) :
    ∀ entry ∈ Entries.erase key entries, entry.2.Inert := by
  intro entry within
  exact inert entry (List.mem_filter.mp within).1

end Value

variable {registry : Registry} {memory : Memory}

namespace Value
variable {holder value : Value} {key : String}

theorem attributeAt_forgotten (inert : holder.Inert) :
    holder.attributeAt { registry, memory } key = holder.attributeAt { registry, memory := .forgetful } key := by
  cases holder with
  | description described attributes => cases described <;> first | rfl | cases inert
  | pointer => cases inert
  | _ => rfl

theorem attribute_inert (inert : holder.Inert) (read : holder.attributeAt { registry, memory } key = .ok value) :
    value.Inert := by
  cases holder with
  | object attributes =>
    cases read
    exact inert_found (inert_object.mp inert) inert_null key
  | location tokens attributes =>
    obtain ⟨tokensInert, attributesInert⟩ := inert_location.mp inert
    simp only [attributeAt, Except.ok.injEq] at read
    subst read
    split
    · rfl
    · split
      · exact tokensInert
      · apply inert_found attributesInert
        unfold Context.ofLocation
        split <;> rfl
  | description described attributes =>
    cases described <;> cases inert
    cases read
    rfl
  | pointer => cases inert
  | missing =>
    cases read
    rfl
  | _ => cases read

end Value

namespace Access
variable {access : Access} {holder value part after : Value} {depth : Nat} {change : Edit}

theorem readProperty_forgotten (inert : holder.Inert) (name mappedKey : Label) :
    readProperty { registry, memory } name mappedKey holder =
      readProperty { registry, memory := .forgetful } name mappedKey holder := by
  have mapped : readMapped { registry, memory } mappedKey holder =
      readMapped { registry, memory := .forgetful } mappedKey holder := by
    cases mappedKey with
    | text key => exact congrArg attempt (attributeAt_forgotten inert)
    | other | unusable => rfl
  rw [readProperty, readProperty, mapped]

theorem read_forgotten (inert : holder.Inert) :
    access.read { registry, memory } depth holder = access.read { registry, memory := .forgetful } depth holder := by
  cases access with
  | property name mappedKey collection => rw [Access.read, Access.read, readProperty_forgotten inert]
  | _ => rfl

theorem isUnsetIn_forgotten (inert : holder.Inert) :
    access.isUnsetIn { registry, memory } holder = access.isUnsetIn { registry, memory := .forgetful } holder := by
  cases access with
  | property name mappedKey collection => rw [isUnsetIn, isUnsetIn, readProperty_forgotten inert]
  | _ => rfl

theorem property_inert {name mappedKey : Label} (inert : holder.Inert)
    (read : readProperty { registry, memory } name mappedKey holder = .ok value) : value.Inert := by
  simp only [readProperty, bind_eq_ok, expect_eq_ok] at read
  obtain ⟨_, -, read⟩ := read
  split at read
  next mapping =>
    obtain ⟨entries, shape⟩ := Option.isSome_iff_exists.mp mapping
    cases name with
    | text name =>
      have found : (Entries.find? name entries).getD .null = value := by
        cases holder <;> cases shape <;> exact Except.ok.inj read
      subst found
      exact inert_found ((inert_entries shape).mp inert) inert_null name
    | other =>
      cases read
      rfl
    | unusable => cases read
  next =>
    cases mappedKey with
    | text key => exact attribute_inert inert (attempt_eq_ok.mp read)
    | other | unusable => cases read

theorem read_inert (inert : holder.Inert) (read : access.read { registry, memory } depth holder = .ok value) :
    value.Inert := by
  cases access with
  | property name mappedKey collection =>
    simp only [Access.read, bind_eq_ok] at read
    obtain ⟨found, reached, settled⟩ := read
    cases depth with
    | zero =>
      have same : found = value := by simpa [needProperty] using settled
      exact same ▸ property_inert inert reached
    | succ depth =>
      rcases needProperty_succ settled with ⟨rfl, -⟩ | ⟨-, -, kind, -, rfl⟩
      · exact property_inert inert reached
      · cases kind <;> rfl
  | position index =>
    rw [read_position] at read
    split at read
    next items shape =>
      obtain ⟨rfl, -⟩ := needElement_eq_ok.mp read
      cases found : items[index]? with
      | none => rfl
      | some stored => exact (inert_items shape).mp inert stored (List.mem_of_getElem? found)
    next => cases read
  | afterLast =>
    cases read
    rfl
  | entry key =>
    rw [read_entry] at read
    split at read
    next entries shape =>
      obtain ⟨rfl, -⟩ := needElement_eq_ok.mp read
      exact inert_found ((inert_entries shape).mp inert) inert_missing key
    next => cases read
  | noEntry =>
    rw [read_noEntry] at read
    split at read
    · obtain ⟨rfl, -⟩ := needElement_eq_ok.mp read
      rfl
    · cases read

/-! Edits with inert values keep a record inert. -/

theorem setAttribute_inert {key : String} (inert : holder.Inert) (given : value.Inert)
    (written : holder.setAttribute key value = .ok after) : after.Inert := by
  cases holder with
  | object attributes =>
    cases written
    exact inert_object.mpr (inert_put (inert_object.mp inert) given key)
  | location tokens attributes =>
    obtain ⟨tokensInert, attributesInert⟩ := inert_location.mp inert
    simp only [setAttribute] at written
    split at written
    · cases written
    · split at written
      · cases written
        exact inert_location.mpr ⟨given, attributesInert⟩
      · cases written
        exact inert_location.mpr ⟨tokensInert, inert_put attributesInert given key⟩
  | description described attributes =>
    cases described <;> cases inert
    cases written
  | _ => cases written

theorem writeNamed_inert {name : Label} {value? : Option Value} (inert : holder.Inert)
    (given : ∀ value, value? = some value → value.Inert) (written : writeNamed name value? holder = .ok after) :
    after.Inert := by
  cases name with
  | text name =>
    cases value? with
    | some value =>
      cases holder <;> cases written
      exact (inert_entries rfl).mpr (inert_put ((inert_entries rfl).mp inert) (given value rfl) name)
    | none =>
      cases holder <;> cases written
      exact (inert_entries rfl).mpr (inert_erase ((inert_entries rfl).mp inert) name)
  | other =>
    cases value? with
    | some value => cases written
    | none =>
      cases written
      exact inert
  | unusable => cases value? <;> cases written

theorem writeMapped_inert {mappedKey : Label} {value? : Option Value} (inert : holder.Inert)
    (given : ∀ value, value? = some value → value.Inert) (written : writeMapped mappedKey value? holder = .ok after) :
    after.Inert := by
  cases mappedKey with
  | text key =>
    apply setAttribute_inert inert _ (attempt_eq_ok.mp written)
    cases value? with
    | some value => exact given value rfl
    | none => exact inert_null
  | other | unusable => cases written

theorem writePosition_inert {index : Nat} (inert : holder.Inert)
    (given : ∀ value, change.value? = some value → value.Inert)
    (written : writePosition index change holder = .ok after) : after.Inert := by
  simp only [writePosition, bind_eq_ok, expect_eq_ok] at written
  obtain ⟨_, changeable, length, -, written⟩ := written
  obtain ⟨items, rfl⟩ : ∃ items, holder = .list items := by
    cases holder <;> first | exact ⟨_, rfl⟩ | cases changeable
  have parts := (inert_items rfl).mp inert
  split at written
  · cases written
  cases change with
  | add value =>
    cases written
    refine (inert_items rfl).mpr fun item within => ?_
    rcases List.mem_append.mp within with before | after
    · exact parts item (List.mem_of_mem_take before)
    · rcases List.mem_cons.mp after with rfl | after
      · exact given _ rfl
      · exact parts item (List.mem_of_mem_drop after)
  | replace value =>
    simp only [setItem, attempt_eq_ok] at written
    split at written
    · cases written
      refine (inert_items rfl).mpr fun item within => ?_
      rcases List.mem_or_eq_of_mem_set within with before | rfl
      · exact parts item before
      · exact given _ rfl
    · cases written
  | remove =>
    simp only [removeItem, attempt_eq_ok] at written
    split at written
    · cases written
      refine (inert_items rfl).mpr fun item within => ?_
      exact parts item (List.mem_of_mem_eraseIdx within)
    · cases written

theorem writeAfterLast_inert (inert : holder.Inert) (given : ∀ value, change.value? = some value → value.Inert)
    (written : writeAfterLast change holder = .ok after) : after.Inert := by
  simp only [writeAfterLast, bind_eq_ok, expect_eq_ok] at written
  obtain ⟨_, changeable, written⟩ := written
  obtain ⟨items, rfl⟩ : ∃ items, holder = .list items := by
    cases holder <;> first | exact ⟨_, rfl⟩ | cases changeable
  cases change <;> cases written
  refine (inert_items rfl).mpr fun item within => ?_
  rcases List.mem_append.mp within with before | last
  · exact (inert_items rfl).mp inert item before
  · obtain rfl := List.mem_singleton.mp last
    exact given _ rfl

theorem write_inert (inert : holder.Inert) (given : ∀ value, change.value? = some value → value.Inert)
    (written : access.write change holder = .ok after) : after.Inert := by
  cases access with
  | property name mappedKey collection =>
    simp only [Access.write, writeProperty, bind_eq_ok] at written
    obtain ⟨_, -, written⟩ := written
    split at written
    · exact writeNamed_inert inert given written
    · exact writeMapped_inert inert given written
  | position index => exact writePosition_inert inert given written
  | afterLast => exact writeAfterLast_inert inert given written
  | entry key =>
    simp only [Access.write, writeEntry, bind_eq_ok] at written
    obtain ⟨_, -, written⟩ := written
    exact writeNamed_inert inert given written
  | noEntry =>
    simp only [Access.write, writeEntry, bind_eq_ok] at written
    obtain ⟨_, -, written⟩ := written
    exact writeNamed_inert inert given written

theorem keepAttribute_inert {key : String} (inert : holder.Inert) (given : part.Inert) :
    (holder.keepAttribute key part).Inert := by
  cases holder with
  | object attributes => exact inert_object.mpr (inert_put (inert_object.mp inert) given key)
  | location tokens attributes =>
    obtain ⟨tokensInert, attributesInert⟩ := inert_location.mp inert
    simp only [keepAttribute]
    split
    · exact inert
    · split
      · exact inert_location.mpr ⟨given, attributesInert⟩
      · split
        · exact inert_location.mpr ⟨tokensInert, inert_put attributesInert given key⟩
        · exact inert
  | _ => exact inert

theorem absorb_inert (inert : holder.Inert) (given : part.Inert) : (access.absorb part holder).Inert := by
  unfold absorb
  split
  · exact (inert_entries rfl).mpr (inert_put ((inert_entries rfl).mp inert) given _)
  · exact (inert_entries rfl).mpr (inert_put ((inert_entries rfl).mp inert) given _)
  · exact keepAttribute_inert inert given
  · refine (inert_items rfl).mpr fun item within => ?_
    rcases List.mem_or_eq_of_mem_set within with before | rfl
    · exact (inert_items rfl).mp inert item before
    · exact given
  · refine (inert_items rfl).mpr fun item within => ?_
    rcases List.mem_or_eq_of_mem_set within with before | rfl
    · exact (inert_items rfl).mp inert item before
    · exact given
  · exact (inert_entries rfl).mpr (inert_put ((inert_entries rfl).mp inert) given _)
  · exact (inert_entries rfl).mpr (inert_put ((inert_entries rfl).mp inert) given _)
  · exact inert

end Access

namespace Route
variable {access : Access} {rest route : List Access} {holder record : Value} {change : Edit}

theorem read_forgotten (inert : record.Inert) :
    read { registry, memory } route record = read { registry, memory := .forgetful } route record := by
  induction route generalizing record with
  | nil => rfl
  | cons access rest ih =>
    rw [read, read, ← Access.read_forgotten inert]
    cases reached : access.read { registry, memory } rest.length record with
    | error obstacle => simp only [mapError_error, bind, Except.bind]
    | ok value => exact ih (Access.read_inert inert reached)

theorem trace_forgotten (inert : record.Inert) :
    trace { registry, memory } route record = trace { registry, memory := .forgetful } route record := by
  induction route generalizing record with
  | nil => rfl
  | cons access rest ih =>
    rw [trace, trace, ← Access.read_forgotten inert]
    cases reached : access.read { registry, memory } rest.length record with
    | error obstacle => rfl
    | ok value => exact congrArg (record :: ·) (ih (Access.read_inert inert reached))

theorem trace_inert (inert : record.Inert) : ∀ value ∈ trace { registry, memory } route record, value.Inert := by
  induction route generalizing record with
  | nil =>
    intro value within
    obtain rfl := List.mem_singleton.mp within
    exact inert
  | cons access rest ih =>
    intro value within
    rw [trace] at within
    split at within
    next part reached =>
      rcases List.mem_cons.mp within with rfl | within
      · exact inert
      · exact ih (Access.read_inert inert reached) value within
    next =>
      obtain rfl := List.mem_singleton.mp within
      exact inert

/-- No container is met on the way into an inert record. -/
theorem opened_of_inert (inert : record.Inert) : opened { registry, memory } route record = [] := by
  apply List.filterMap_eq_nil_iff.mpr
  intro value within
  have valueInert := trace_inert inert value within
  cases value with
  | description described attributes => cases described <;> first | rfl | cases valueInert
  | _ => rfl

theorem edit_forgotten (inert : holder.Inert) :
    edit { registry, memory } change access rest holder =
      edit { registry, memory := .forgetful } change access rest holder := by
  induction rest generalizing access holder with
  | nil =>
    have same : access.read { registry, memory } 0 holder = access.read { registry, memory := .forgetful } 0 holder :=
      Access.read_forgotten inert
    simp only [edit, editSlot, same]
  | cons next rest ih =>
    have same : access.read { registry, memory } (rest.length + 1) holder =
        access.read { registry, memory := .forgetful } (rest.length + 1) holder := Access.read_forgotten inert
    have unset : access.isUnsetIn { registry, memory } holder = access.isUnsetIn { registry, memory := .forgetful } holder :=
      Access.isUnsetIn_forgotten inert
    simp only [edit, unset, ← same]
    cases reached : access.read { registry, memory } (rest.length + 1) holder with
    | error obstacle => rfl
    | ok value => simp only [ih (Access.read_inert inert reached)]

theorem edit_inert (inert : holder.Inert) (given : ∀ value, change.value? = some value → value.Inert) :
    (edit { registry, memory } change access rest holder).1.Inert := by
  induction rest generalizing access holder with
  | nil =>
    simp only [edit]
    split
    next prior edited slot =>
      simp only [editSlot, bind_eq_ok, mapError_eq_ok] at slot
      obtain ⟨_, -, _, written, same⟩ := slot
      cases same
      exact Access.write_inert inert given written
    next => exact inert
  | cons next rest ih =>
    simp only [edit]
    split
    next => exact inert
    next value reached =>
      have part : (edit { registry, memory } change next rest value).1.Inert := ih (Access.read_inert inert reached)
      split
      · split
        · split
          next stored written =>
            apply Access.write_inert inert _ written
            intro given same
            cases same
            exact part
          next => exact inert
        · exact inert
      · exact Access.absorb_inert inert part

private theorem anchor_of_inert (inert : record.Inert) {described : Description} {access : Access} {below : List Access}
    (anchored : anchor? { registry, memory } route record = some (described, access, below)) :
    described.subject? = none := by
  induction route generalizing record with
  | nil => cases anchored
  | cons first rest ih =>
    simp only [anchor?, Option.orElse_eq_orElse, Option.orElse_eq_or, Option.or_eq_some_iff] at anchored
    rcases anchored with deeper | ⟨-, here⟩
    · split at deeper
      next value reached => exact ih (Access.read_inert inert reached) deeper
      next => cases deeper
    · split at here
      next shown attributes =>
        cases here
        cases described <;> first | rfl | cases inert
      next => cases here

/-- What describes record types is not changed by edits of an inert record. -/
theorem amend_of_inert (inert : record.Inert) : amend { registry, memory } change route record = {} := by
  unfold amend
  split
  next described access below anchored =>
    rw [anchor_of_inert inert anchored]
    split
    next impossible => cases impossible
    next => rfl
  next => rfl

end Route

namespace Pointer
variable {pointer : Pointer} {record : Value} {change : Edit}

theorem edit_forgotten (inert : record.Inert) :
    pointer.edit { registry, memory } change record = pointer.edit { registry, memory := .forgetful } change record := by
  unfold edit
  cases pointer.misuse? {} change with
  | some misuse => rfl
  | none =>
    cases pointer.route {} with
    | nil => rfl
    | cons access rest => simp only [Route.edit_forgotten inert]

theorem edit_inert (inert : record.Inert) (given : ∀ value, change.value? = some value → value.Inert) :
    (pointer.edit { registry, memory } change record).1.Inert := by
  unfold edit
  cases pointer.misuse? {} change with
  | some misuse => exact inert
  | none =>
    cases pointer.route {} with
    | nil => exact inert
    | cons access rest => exact Route.edit_inert inert given

theorem amend_of_inert (inert : record.Inert) : pointer.amend { registry, memory } change record = {} := by
  unfold amend
  split
  · rfl
  · exact Route.amend_of_inert inert

end Pointer
end RecordAddress
