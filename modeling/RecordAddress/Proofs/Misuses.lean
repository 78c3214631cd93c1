import RecordAddress.Proofs.Frame
import RecordAddress.Proofs.Tokens

/-! What may not be done through a pointer. The pointer and the value that is given tell it alone, before the record is
looked at. -/

namespace RecordAddress.Pointer
variable {context : Context} {container : Container} {pointer : Pointer} {change : Edit} {record : Value} {misuse : Misuse}

/-- An edit that may not be made through the pointer, whatever the record holds. -/
inductive Misused (pointer : Pointer) (change : Edit) : Prop
  | root : pointer.isRoot = true → Misused pointer change
  | missing : change.value? = some .missing → Misused pointer change
  | null {target : Property} : change.value? = some .null → pointer.isElement = true → pointer.property? = some target →
      target.field.valueType = .object → Misused pointer change
  | dash {target : Property} : (∀ value, change ≠ .add value) → pointer.isElement = true →
      pointer.property? = some target → target.field.collection? = some .array → pointer.tokens.getLast? = some "-" →
      Misused pointer change

/-- Whatever happens on the way into a record is no misuse. -/
private theorem faultAt_ne_misuse (pointer : Pointer) (failure : Route.Failure) (misuse : Misuse) :
    pointer.faultAt failure ≠ .misuse misuse := by
  unfold faultAt
  cases failure.obstacle <;> exact nofun

/-- Misuse is looked for before the record is, and found nowhere else. -/
theorem edit_eq_misuse :
    (pointer.edit context change record).2 = .error (.misuse misuse) ↔ pointer.misuse? context.amendments change = some misuse := by
  unfold edit
  cases found : pointer.misuse? context.amendments change with
  | some other => simp
  | none =>
    simp only [reduceCtorEq, iff_false]
    cases pointer.route context.amendments with
    | nil => exact nofun
    | cons access rest =>
      intro failed
      obtain ⟨failure, -, same⟩ := mapError_eq_error.mp failed
      exact faultAt_ne_misuse pointer failure misuse same

private theorem dash_iff_token {dashAllowed : Bool} {token : String} {index : ArrayIndex}
    (read : ArrayIndex.ofText dashAllowed token = .ok index) : index = .afterLast ↔ token = "-" := by
  rcases ArrayIndex.ofText_eq_ok.mp read with ⟨rfl, -, rfl⟩ | ⟨decimal, -, rfl⟩
  · simp
  · refine ⟨nofun, ?_⟩
    rintro rfl
    cases decimal

/-- The dash of an array is told by its token, while in a map the token is a key like any other. -/
theorem Reached.index_of_token {target : Property} (reached : Reached container pointer) (isElement : pointer.isElement = true)
    (named : pointer.property? = some target) :
    (target.field.collection? = some .array → (pointer.isDash = true ↔ pointer.tokens.getLast? = some "-")) ∧
    (target.field.collection? = some .map → pointer.index? = pointer.tokens.getLast?.map .key) := by
  cases reached with
  | root => cases isElement
  | @extend _ _ _ _ parent _ _ _ extended =>
    rcases extend_eq_ok.mp extended with ⟨index, awaited, read, rfl⟩ | ⟨awaited, rfl⟩ | ⟨_, _, _, -, -, rfl⟩
    · obtain ⟨_, _, _, _, rfl, array⟩ := @collection_of_next parent .array awaited
      cases named
      refine ⟨fun _ => ?_, fun map => by cases array.symm.trans map⟩
      have last : ElementIndex.ofArray index = .afterLast ↔ index = .afterLast := by cases index <;> simp [ElementIndex.ofArray]
      simpa [isDash, index?, tokens, last] using dash_iff_token read
    · obtain ⟨_, _, _, _, rfl, map⟩ := @collection_of_next parent .map awaited
      cases named
      refine ⟨fun array => (by cases map.symm.trans array), fun _ => ?_⟩
      simp [index?, tokens]
    · cases isElement

/-- Only elements of arrays can be dashes. -/
theorem Reached.array_of_dash (reached : Reached container pointer) (dash : pointer.isDash = true) :
    pointer.isElement = true ∧ ∃ target, pointer.property? = some target ∧ target.field.collection? = some .array := by
  cases pointer with
  | root | property => cases dash
  | element parent token index =>
    obtain ⟨_, _, target, _, rfl, kind⟩ := reached.below_collection
    obtain rfl : index = .afterLast := by simpa [isDash, index?] using dash
    exact ⟨rfl, target, rfl, kind⟩

private theorem misuse_of_value {value : Value} :
    (∃ misuse, misuse?.ofValue {} pointer value = some misuse) ↔
      pointer.isRoot = true ∨ value = .missing ∨
        value = .null ∧ pointer.isElement = true ∧ ∃ target, pointer.property? = some target ∧ target.field.valueType = .object := by
  have isMissing : value.isMissing = true ↔ value = .missing := by cases value <;> simp [Value.isMissing]
  have isUnset : value.isUnset = true ↔ value = .null := by cases value <;> simp [Value.isUnset]
  have objects : pointer.property?.any ({} : Amendments).holdsObjects = true ↔
      ∃ target, pointer.property? = some target ∧ target.field.valueType = .object := by
    cases pointer.property? <;> simp
  simp only [misuse?.ofValue, Bool.and_eq_true, isMissing, isUnset, objects, and_assoc]
  split_ifs with root missing null <;> simp_all

private theorem misuse_iff_parts :
    (∃ misuse, pointer.misuse? {} change = some misuse) ↔
      pointer.isRoot = true ∨ (∃ value, change.value? = some value ∧ ∃ misuse, misuse?.ofValue {} pointer value = some misuse) ∨
        (∀ value, change ≠ .add value) ∧ pointer.isDash = true := by
  have rootGiven (value : Value) (root : pointer.isRoot = true) : ∃ misuse, misuse?.ofValue {} pointer value = some misuse :=
    misuse_of_value.mpr (.inl root)
  cases change with
  | add value => simpa [misuse?, Edit.value?] using rootGiven value
  | replace value =>
    cases given : misuse?.ofValue {} pointer value with
    | some misuse => simp [misuse?, Edit.value?, given]
    | none =>
      have notRoot : pointer.isRoot = false := by
        refine Bool.eq_false_iff.mpr fun root => ?_
        obtain ⟨misuse, same⟩ := rootGiven value root
        cases given.symm.trans same
      simp [misuse?, Edit.value?, given, notRoot]
  | remove =>
    cases root : pointer.isRoot <;> cases dash : pointer.isDash <;> simp [misuse?, Edit.value?, root, dash]

theorem Reached.misuse_iff (reached : Reached container pointer) :
    (∃ misuse, pointer.misuse? {} change = some misuse) ↔ pointer.Misused change := by
  rw [misuse_iff_parts]
  constructor
  · rintro (root | ⟨value, given, misuse⟩ | ⟨noAdd, isDash⟩)
    · exact .root root
    · rcases misuse_of_value.mp misuse with root | rfl | ⟨rfl, isElement, target, named, objects⟩
      · exact .root root
      · exact .missing given
      · exact .null given isElement named objects
    · obtain ⟨isElement, target, named, array⟩ := reached.array_of_dash isDash
      exact .dash noAdd isElement named array (((reached.index_of_token isElement named).1 array).mp isDash)
  · intro misused
    cases misused with
    | root root => exact .inl root
    | missing given => exact .inr (.inl ⟨_, given, misuse_of_value.mpr (.inr (.inl rfl))⟩)
    | null given isElement named objects =>
      exact .inr (.inl ⟨_, given, misuse_of_value.mpr (.inr (.inr ⟨rfl, isElement, _, named, objects⟩))⟩)
    | dash noAdd isElement named array last =>
      exact .inr (.inr ⟨noAdd, ((reached.index_of_token isElement named).1 array).mpr last⟩)

/-- Misuse is told by the pointer and the edit alone: whatever the record is, the same one is found, or none. The whole
record may not be changed, absence is no value, null is no object in a collection of them, and nothing can be replaced or
removed behind the last element of an array. In a map a dash is a key like any other. -/
theorem misuse_ignores_records (reached : Reached container pointer) (change : Edit) :
    (∀ (context other : Context) (record otherRecord : Value) (misuse : Misuse), context.amendments = other.amendments →
      ((pointer.edit context change record).2 = .error (.misuse misuse) ↔
        (pointer.edit other change otherRecord).2 = .error (.misuse misuse))) ∧
    (∀ registry memory record,
      (∃ misuse, (pointer.edit { registry, memory } change record).2 = .error (.misuse misuse)) ↔ pointer.Misused change) ∧
    ∀ target, pointer.isElement = true → pointer.property? = some target → target.field.collection? = some .map →
      pointer.index? = pointer.tokens.getLast?.map .key ∧ pointer.isDash = false ∧ ¬ pointer.Misused .remove ∧
        ∀ value, pointer.Misused (.replace value) ↔ pointer.Misused (.add value) := by
  refine ⟨?_, ?_, ?_⟩
  · intro context other record otherRecord misuse same
    rw [edit_eq_misuse, edit_eq_misuse, same]
  · intro registry memory record
    simp only [edit_eq_misuse]
    exact reached.misuse_iff
  · intro target isElement named map
    have noDash : pointer.isDash = false := by
      refine Bool.eq_false_iff.mpr fun dash => ?_
      obtain ⟨-, other, otherNamed, array⟩ := reached.array_of_dash dash
      cases named.symm.trans otherNamed
      cases map.symm.trans array
    have notRoot : pointer.isRoot = false := by cases pointer <;> first | rfl | cases isElement
    refine ⟨(reached.index_of_token isElement named).2 map, noDash, ?_, fun value => ?_⟩
    · rw [← reached.misuse_iff, misuse_iff_parts]
      simp [notRoot, noDash, Edit.value?]
    · rw [← reached.misuse_iff, ← reached.misuse_iff, misuse_iff_parts, misuse_iff_parts]
      simp [noDash, Edit.value?]

/-- Whatever an order holds, the position behind its last tag is never removed, while a note under the key of a dash may
be. -/
theorem dash_is_removed_from_maps_alone :
    let context : Context := { registry := Orders.registry }
    Reached Orders.container Orders.nextTag ∧ Reached Orders.container (Orders.note "-") ∧
    (∀ record misuse, (Orders.nextTag.edit context .remove record).2 = .error (.misuse misuse) ↔
      (Orders.nextTag.edit context .remove .null).2 = .error (.misuse misuse)) ∧
    (∀ record, ∃ misuse, (Orders.nextTag.edit context .remove record).2 = .error (.misuse misuse)) ∧
    (Orders.note "-").index? = some (.key "-") ∧
    ∀ record, ¬ ∃ misuse, ((Orders.note "-").edit context .remove record).2 = .error (.misuse misuse) := by
  intro context
  have parsed : (parse context Orders.container true (.text "/tags/-")).outcome = .ok Orders.nextTag := rfl
  have tagReached := reached_of_parse parsed
  have noteReached := note_reached "-"
  obtain ⟨same, told, -⟩ := misuse_ignores_records tagReached .remove
  obtain ⟨-, noteTold, inMap⟩ := misuse_ignores_records noteReached .remove
  obtain ⟨isKey, -, proper, -⟩ := inMap _ rfl rfl rfl
  have misused : Orders.nextTag.Misused .remove := .dash nofun rfl rfl rfl rfl
  exact ⟨tagReached, noteReached, fun record misuse => same context context record .null misuse rfl,
    fun record => (told _ _ record).mpr misused, isKey, fun record found => proper ((noteTold _ _ record).mp found)⟩

end RecordAddress.Pointer
