import RecordAddress.Proofs.Elsewhere
import RecordAddress.Proofs.Orders
import RecordAddress.Proofs.Reached

/-! The frame of an edit. What is read through a pointer to another place is the same before and after, or
can be read neither before nor after. -/

namespace RecordAddress
open Value

namespace Pointer
variable {container : Container} {pointer : Pointer}

/-- The steps of a way are those to the pointers of the chain. -/
private def StepOf (before : List Access) (access : Access) (step : Pointer) : Prop :=
  step.isRoot = false ∧ step.parent.route {} = before ∧ step.route {} = before ++ [access]

private theorem step_of_last {parent child : Pointer} {before beyond : List Access} {access last : Access}
    (notRoot : child.isRoot = false) (below : child.parent = parent) (route : child.route {} = parent.route {} ++ [last])
    (chain : child.chain = parent.chain ++ [child])
    (above : ∀ {beyond}, parent.route {} = before ++ access :: beyond → ∃ step ∈ parent.chain, StepOf before access step)
    (way : child.route {} = before ++ access :: beyond) : ∃ step ∈ child.chain, StepOf before access step := by
  rw [chain]
  rcases List.eq_nil_or_concat beyond with rfl | ⟨further, end_, rfl⟩
  · refine ⟨child, List.mem_append_right _ (List.mem_singleton_self _), notRoot, ?_, way⟩
    rw [route] at way
    rw [below]
    exact (List.append_inj' way rfl).1
  · have shorter : parent.route {} = before ++ access :: further := by
      rw [route, List.concat_eq_append, ← List.cons_append, ← List.append_assoc] at way
      exact (List.append_inj' way rfl).1
    obtain ⟨step, within, steps⟩ := above shorter
    exact ⟨step, List.mem_append_left _ within, steps⟩

private theorem step_of_route {before beyond : List Access} {access : Access}
    (way : pointer.route {} = before ++ access :: beyond) : ∃ step ∈ pointer.chain, StepOf before access step := by
  induction pointer generalizing beyond with
  | root container => simp [route] at way
  | property parent token target children ih => exact step_of_last rfl rfl rfl rfl ih way
  | element parent token index ih => exact step_of_last rfl rfl rfl rfl ih way

theorem kind_of_access (index : ElementIndex) : index.access.kind? = some index.kind := by
  cases index <;> rfl

/-- Above a property there is no collection. -/
private theorem Reached.below_object {parent : Pointer} {token : String} {target : Property} {children : Option Container}
    (reached : Reached container (.property parent token target children)) :
    ∀ last ∈ (parent.route {}).getLast?, last.collection? = none := by
  cases reached with
  | extend _ extended =>
    rcases extend_eq_ok.mp extended with ⟨_, -, -, same⟩ | ⟨-, same⟩ | ⟨_, _, _, awaited, -, same⟩
    · cases same
    · cases same
    · cases same
      cases parent with
      | root => exact nofun
      | property above token target children =>
        have single : target.field.collection? = none := by
          simp only [next, Amendments.collection?_unchanged] at awaited
          split at awaited <;> first | assumption | cases awaited
        intro last end_
        obtain rfl : accessOf {} target = last := by simpa [route] using end_
        simpa [accessOf, Access.collection?] using single
      | element above token index =>
        intro last end_
        obtain rfl : index.access = last := by simpa [route, elementAccess] using end_
        cases index <;> rfl

theorem Reached.coherent (reached : Reached container pointer) : (pointer.route {}).IsChain Access.Follows := by
  induction reached with
  | root => exact .nil
  | @extend _ _ _ _ parent child _ above extended ih =>
    have reached := above.extend extended
    obtain ⟨rfl, -, -⟩ := parent_of_extend extended
    cases child with
    | root container => exact .nil
    | property parent token target children =>
      refine List.isChain_append.mpr ⟨ih, .singleton _, ?_⟩
      rintro last end_ access ⟨⟩
      exact (reached.below_object last end_).symm
    | element parent token index =>
      obtain ⟨grandparent, token, target, children, same, collection⟩ := reached.below_collection
      subst same
      refine List.isChain_append.mpr ⟨ih, .singleton _, ?_⟩
      rintro last end_ access ⟨⟩
      obtain rfl : accessOf {} target = last := by simpa [route] using end_
      simp only [Access.Follows, accessOf, Access.collection?, Amendments.collection?_unchanged, collection]
      simpa [elementAccess] using kind_of_access index

def isEntry (pointer : Pointer) : Bool :=
  match pointer.index? with
  | some (.key _) => true
  | _ => false

/-- Pointers to places of which none lies in the other. The second leads through no array that the change
moves elements of, and through no collection that the change makes up, but it may lead to other entries of
a map, or look for an object where an array is made up. -/
structure Apart (change : Edit) (record : Value) (pointer other : Pointer) : Prop
    extends Slot.Apart change pointer.slots other.slots where
  notMadeUp : change ≠ .remove → (record.at? pointer.parent.slots).getD .null = .null →
    ∀ step ∈ other.chain, step.isRoot = false → step.parent.slots = pointer.parent.slots →
      (pointer.isEntry = true ∧ step.isEntry = true) ∨
      (pointer.isElement = true ∧ pointer.isEntry = false ∧ step.isElement = false)

/-- An edit that succeeds in some record is the same walk into every record. -/
theorem edit_walks {registry : Registry} {memory : Memory} {change : Edit} {record after prior : Value}
    (done : pointer.edit { registry, memory } change record = (after, .ok prior)) :
    ∃ access rest, pointer.route {} = access :: rest ∧ ∀ record after prior,
      pointer.edit { registry, memory } change record = (after, .ok prior) ↔
        Route.edit { registry, memory } change access rest record = (after, .ok prior) := by
  unfold edit at done ⊢
  cases misuse : pointer.misuse? {} change with
  | some misuse => simp [misuse] at done
  | none =>
    cases way : pointer.route {} with
    | nil =>
      have root : pointer.isRoot = true := by cases pointer <;> simp_all [route, isRoot]
      cases change <;> simp [misuse?, misuse?.ofValue, root] at misuse
    | cons access rest =>
      refine ⟨access, rest, rfl, fun record after prior => ?_⟩
      simp only [Prod.ext_iff, mapError_eq_ok]

theorem edit_is_walk {registry : Registry} {memory : Memory} {change : Edit} {record prior : Value}
    (done : (pointer.edit { registry, memory } change record).2 = .ok prior) :
    ∃ access rest, pointer.route {} = access :: rest ∧
      (pointer.edit { registry, memory } change record).1 = (Route.edit { registry, memory } change access rest record).1 ∧
      (Route.edit { registry, memory } change access rest record).2 = .ok prior := by
  have whole : pointer.edit { registry, memory } change record = (_, .ok prior) := Prod.ext rfl done
  obtain ⟨access, rest, way, walks⟩ := edit_walks whole
  have walked := (walks ..).mp whole
  exact ⟨access, rest, way, by rw [walked], by rw [walked]⟩

private theorem entry_of_isEntry (entry : pointer.isEntry = true) :
    ∃ parent token key, pointer = .element parent token (.key key) := by
  cases pointer with
  | root | property => cases entry
  | element parent token index => cases index <;> first | exact ⟨_, _, _, rfl⟩ | cases entry

theorem Apart.madeUpApart {change : Edit} {record : Value} {other : Pointer}
    (apart : Apart change record pointer other) : MadeUpApart change pointer.slots (other.route {}) record := by
  intro given above name slot before access beyond slots nothing way same
  obtain ⟨step, within, notRoot, parentWay, stepWay⟩ := step_of_route way
  have parentSlots : pointer.parent.slots = above ++ [.key name] := by
    have shorter := slots_dropLast pointer
    cases pointer with
    | root container => simp [Pointer.slots] at slots
    | property | element => simpa [slots, isRoot] using shorter.symm
  have stepSlots : step.parent.slots = pointer.parent.slots := by
    rw [← parentWay, slots_of_route, ← parentSlots] at same
    exact List.map_injective_iff.mpr (fun _ _ => Option.some.inj) same
  rw [← parentSlots] at nothing
  have slotEnds : pointer.slots = pointer.parent.slots ++ [slot] := by
    rw [slots, parentSlots, List.append_assoc]
    rfl
  have wayEnds : step.route {} = step.parent.route {} ++ [access] := by rw [stepWay, parentWay]
  rcases apart.notMadeUp given nothing step within notRoot stepSlots with ⟨pointerEntry, stepEntry⟩ | ⟨isElement, noEntry, single⟩
  · obtain ⟨parent, token, key, rfl⟩ := entry_of_isEntry pointerEntry
    obtain ⟨stepParent, stepToken, stepKey, rfl⟩ := entry_of_isEntry stepEntry
    refine .inl ⟨⟨key, ?_⟩, stepKey, ?_⟩
    · exact (List.head_eq_of_cons_eq (List.append_cancel_left slotEnds)).symm
    · simpa [elementAccess, ElementIndex.access] using (List.head_eq_of_cons_eq (List.append_cancel_left wayEnds)).symm
  · refine .inr ⟨?_, ?_⟩
    · cases pointer with
      | root | property => cases isElement
      | element parent token index =>
        cases index with
        | key => cases noEntry
        | position | afterLast =>
          obtain rfl := List.head_eq_of_cons_eq (List.append_cancel_left slotEnds)
          rfl
    · cases step with
      | root => cases notRoot
      | element => cases single
      | property =>
        obtain rfl := List.head_eq_of_cons_eq (List.append_cancel_left wayEnds)
        rfl

/-- An edit that succeeds changes a record, all objects of which are mappings, in the slot of its pointer
only, and whatever is read through a pointer apart from that is the same before and after, or missing
before and after. -/
theorem edit_changes_its_slot_only {registry : Registry} {memory : Memory} {container : Container} {pointer : Pointer}
    {change : Edit} {record prior : Value} (reached : Reached container pointer)
    (plain : record.throughout isPlain = true)
    (done : (pointer.edit { registry, memory } change record).2 = .ok prior) :
    EditedAt change pointer.slots record (pointer.edit { registry, memory } change record).1 ∧
    ∀ other, Reached container other → Apart change record pointer other →
      (∃ value, other.get { registry, memory } record = .ok value ∧
        other.get { registry, memory } (pointer.edit { registry, memory } change record).1 = .ok value) ∨
      (∃ fault, other.get { registry, memory } record = .error (.data fault)) ∧
      ∃ fault, other.get { registry, memory } (pointer.edit { registry, memory } change record).1 = .error (.data fault) := by
  obtain ⟨access, rest, way, after, walked⟩ := edit_is_walk done
  have leads : (access :: rest).map Access.slot? = pointer.slots.map some := way ▸ slots_of_route pointer
  have changed : EditedAt change pointer.slots record (pointer.edit { registry, memory } change record).1 :=
    after ▸ Route.edit_changes leads reached.dash_at_end plain walked
  refine ⟨changed, fun other otherReached apart => ?_⟩
  have alike : Route.Alike (Route.read { registry, memory } (other.route {}) record) _ :=
    Route.alike_elsewhere changed (slots_of_route other) otherReached.coherent apart.toApart apart.madeUpApart
  rcases alike with same | ⟨⟨_, _, before⟩, _, _, after⟩
  · cases read : Route.read { registry, memory } (other.route {}) record with
    | ok value => exact .inl ⟨value, mapError_eq_ok.mpr read, mapError_eq_ok.mpr (same.symm.trans read)⟩
    | error failure =>
      obtain ⟨_, _, refused⟩ := Route.refused_of_plain (slots_of_route other) otherReached.dash_at_end plain read
      cases refused
      exact .inr ⟨⟨_, mapError_eq_error.mpr ⟨_, read, rfl⟩⟩, _, mapError_eq_error.mpr ⟨_, same.symm.trans read, rfl⟩⟩
  · exact .inr ⟨⟨_, mapError_eq_error.mpr ⟨_, before, rfl⟩⟩, _, mapError_eq_error.mpr ⟨_, after, rfl⟩⟩

theorem note_reached (key : String) : Reached Orders.container (Orders.note key) := by
  have notes : (extend { registry := Orders.registry } .null true (.root Orders.container) "notes").outcome =
      .ok (Orders.note key).parent := rfl
  have entry : (extend { registry := Orders.registry } .null true (Orders.note key).parent key).outcome =
      .ok (Orders.note key) := rfl
  exact (Reached.root.extend notes).extend entry

/-- Another note is as absent as before, though there are notes now. -/
theorem first_note_leaves_the_second :
    Reached Orders.container (Orders.note "first") ∧ Reached Orders.container (Orders.note "second") ∧
    (Value.dict []).throughout isPlain = true ∧
    ((Orders.note "first").edit { registry := Orders.registry } (.add (.text "new")) (.dict [])).2 = .ok .missing ∧
    Apart (.add (.text "new")) (.dict []) (Orders.note "first") (Orders.note "second") ∧
    ∃ value, (Orders.note "second").get { registry := Orders.registry } (.dict []) = .ok value ∧
      (Orders.note "second").get { registry := Orders.registry } (.dict [("notes", .dict [("first", .text "new")])]) = .ok value := by
  have apart : Apart (.add (.text "new")) (.dict []) (Orders.note "first") (Orders.note "second") := by
    refine ⟨.of_key [.key "notes"] (by decide) (by decide), ?_⟩
    rintro - - step within notRoot below
    simp only [Orders.note, chain, List.cons_append, List.nil_append, List.mem_cons, List.not_mem_nil, or_false] at within
    rcases within with rfl | rfl | rfl
    · cases notRoot
    · cases below
    · exact .inl ⟨rfl, rfl⟩
  have done : ((Orders.note "first").edit { registry := Orders.registry } (.add (.text "new")) (.dict [])).2 = .ok .missing :=
    rfl
  refine ⟨note_reached _, note_reached _, rfl, done, apart, ?_⟩
  rcases (edit_changes_its_slot_only (note_reached "first") rfl done).2 _ (note_reached "second") apart with
    same | ⟨⟨_, refused⟩, -⟩
  · exact same
  · cases refused

/-- The details of an event, of which there are none yet, are made up as a map. Those of another subtype of
event are an object, so that what they lack can be read only afterwards. -/
theorem made_up_map_is_read_as_object :
    ∃ pointer other after fault,
      (parse { registry := Orders.registry } Orders.events true (.text "/NOTED:details/first")).outcome = .ok pointer ∧
      (parse { registry := Orders.registry } Orders.events true (.text "/SHIPPED:details/name")).outcome = .ok other ∧
      Slot.Apart (.add (.text "new")) pointer.slots other.slots ∧
      pointer.edit { registry := Orders.registry } (.add (.text "new")) (.dict []) = (after, .ok .missing) ∧
      other.get { registry := Orders.registry } (.dict []) = .error (.data fault) ∧
      other.get { registry := Orders.registry } after = .ok .null := by
  refine ⟨_, _, _, _, rfl, rfl, ?_, rfl, rfl, rfl⟩
  exact Slot.Apart.of_key [.key "details"] (by decide) (by decide)

end Pointer
end RecordAddress
