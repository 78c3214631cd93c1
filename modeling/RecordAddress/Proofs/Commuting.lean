import RecordAddress.Proofs.Frame
import RecordAddress.Proofs.Locality

/-! Edits in different places commute. The ways to both places part somewhere: where they part the edits are in
different slots, and above that both go through the same slot. Where that holds a collection that is not set, the first
edit makes it up and the second finds it, whichever of them is first. -/

namespace RecordAddress
open Value

/-- Two edits that succeed one after the other succeed the other way round as well, with the same answers, and end
in the same but for the order of keys. -/
def Exchange {ε : Type} (first second : Value → Value × Except ε Value) (record : Value) : Prop :=
  ∀ middle last prior before, first record = (middle, .ok prior) → second middle = (last, .ok before) →
    ∃ other final, second record = (other, .ok before) ∧ first other = (final, .ok prior) ∧ Reordered last final

namespace Slot
variable {change : Edit} {slot other : Slot} {below beyond : List Slot} {rest : List Access} {effect : Option Edit}

theorem Apart.still (apart : Apart change (slot :: below) (other :: beyond))
    (leads : rest.map Access.slot? = below.map some) (does : Route.Effect change rest effect) :
    ∀ done ∈ effect, Still done slot other := by
  intro done within position otherPosition
  rcases does with rfl | ⟨part, rfl⟩ | ⟨rfl, rfl⟩
  · cases within
  · cases within
    exact ⟨part, rfl⟩
  · cases within
    obtain rfl : below = [] := by simpa using leads
    by_contra moves
    have named := apart.notMoved (fun value same => moves ⟨value, same⟩) [] slot other beyond rfl rfl position
    rw [otherPosition] at named
    cases named

end Slot

namespace Route
variable {context : Context} {change second : Edit} {access next step : Access} {rest below : List Access}
  {slot other : Slot} {slots others : List Slot} {holder part after prior : Value}

/-- A way that leads from slot to slot, each step to what the one above it is followed by. -/
structure Through (way : List Access) (slots : List Slot) : Prop where
  leads : way.map Access.slot? = slots.map some
  coherent : way.IsChain Access.Follows
  inside : Slot.dash ∉ slots.dropLast

namespace Through

theorem cons (through : Through (access :: rest) slots) :
    ∃ slot below, slots = slot :: below ∧ access.slot? = some slot ∧ rest.map Access.slot? = below.map some :=
  slot_of_way through.leads

theorem tail {below : List Slot} (through : Through (access :: rest) (slot :: below)) : Through rest below where
  leads := by
    have leads := through.leads
    simp only [List.map_cons, List.cons.injEq] at leads
    exact leads.2
  coherent := through.coherent.tail
  inside within := by
    cases below with
    | nil => cases within
    | cons => exact through.inside (List.mem_cons_of_mem slot within)

theorem notDash {below : List Slot} (through : Through (access :: rest) (slot :: below)) (further : rest ≠ []) :
    slot ≠ .dash := by
  rintro rfl
  cases below with
  | nil => exact further (List.map_eq_nil_iff.mp (List.cons.inj through.leads).2)
  | cons => exact through.inside (List.mem_cons_self ..)

end Through

/-- An edit in one place leaves the way to the other one alone. Where it makes up a collection, both go on to
entries of that. -/
structure Clear (change : Edit) (slots others : List Slot) (way : List Access) (holder : Value) : Prop
    extends Slot.Apart change slots others where
  notMadeUp : MadeUpApart change slots way holder

theorem Clear.tail {further beyond : List Slot} (clear : Clear change (slot :: further) (slot :: beyond) (access :: rest) holder)
    (leads : access.slot? = some slot) (found : holder.child? slot = some part) : Clear change further beyond rest part where
  toApart := clear.toApart.tail
  notMadeUp := clear.notMadeUp.tail leads found

/-! Both through the same slot, and what that holds is set. -/

theorem edit_inside (leads : access.slot? = some slot) (found : holder.child? slot = some part)
    (present : part.isUnset = false) (there : part.isMissing = false) :
    edit context change access (next :: rest) holder =
      (holder.putChild slot (edit context change next rest part).1, (edit context change next rest part).2) := by
  have plain := (holder_of_child found).1
  have read : ∀ depth, access.read context depth holder = .ok part :=
    Access.read_of_child leads plain found present there
  have isSet : access.isUnsetIn context holder = false := by
    rcases Access.read_below (read 1) with ⟨isSet, -⟩ | ⟨-, -, name, mappedKey, kind, rfl, nothing, -⟩
    · exact isSet
    · have shallow := read 0
      simp only [Access.read, nothing] at shallow
      cases shallow
      cases present
  rw [edit_of_set (read _) isSet, Access.absorb_slot leads found]

private theorem edited_set (through : Through (access :: rest) slots) (plain : holder.throughout isPlain = true)
    (done : edit context change access rest holder = (after, .ok prior)) : after.isUnset = false ∧ after.isMissing = false := by
  have changed : EditedAt change slots holder (edit context change access rest holder).1 :=
    edit_changes through.leads through.inside plain (by rw [done])
  rw [done] at changed
  exact changed.isSet.2

/-- Edits that exchange below a slot exchange above it. -/
theorem inside_exchange {otherStep : Access} {slots others : List Slot} (leads : access.slot? = some slot)
    (leadsToo : next.slot? = some slot) (through : Through (step :: rest) slots)
    (throughToo : Through (otherStep :: below) others) (found : holder.child? slot = some part)
    (plain : part.throughout isPlain = true) (present : part.isUnset = false) (there : part.isMissing = false)
    (inner : Exchange (edit context change step rest) (edit context second otherStep below) part) :
    Exchange (edit context change access (step :: rest)) (edit context second next (otherStep :: below)) holder := by
  have behind (part : Value) : (holder.putChild slot part).child? slot = some part := by simp [child?_putChild found]
  intro middle last prior before done doneToo
  rw [edit_inside leads found present there] at done
  obtain ⟨rfl, priorAnswer⟩ := Prod.mk.inj done
  obtain ⟨stillPresent, stillThere⟩ := edited_set through plain (Prod.ext rfl priorAnswer)
  rw [edit_inside leadsToo (behind _) stillPresent stillThere, putChild_putChild] at doneToo
  obtain ⟨rfl, beforeAnswer⟩ := Prod.mk.inj doneToo
  obtain ⟨other, final, doneFirst, doneLast, reordered⟩ := inner _ _ _ _ (Prod.ext rfl priorAnswer) (Prod.ext rfl beforeAnswer)
  obtain ⟨presentToo, thereToo⟩ := edited_set throughToo plain doneFirst
  refine ⟨holder.putChild slot other, holder.putChild slot final, ?_, ?_, .inside reordered⟩
  · rw [edit_inside leadsToo found present there, doneFirst]
  · rw [edit_inside leads (behind other) presentToo thereToo, doneLast, putChild_putChild]

/-! Both through different slots. -/

theorem fork_exchange {further beyond : List Slot} (through : Through (access :: rest) (slot :: further))
    (throughToo : Through (next :: below) (other :: beyond)) (plain : holder.isPlain = true) (fork : slot ≠ other)
    (apart : Slot.Apart change (slot :: further) (other :: beyond))
    (apartToo : Slot.Apart second (other :: beyond) (slot :: further)) :
    Exchange (edit context change access rest) (edit context second next below) holder := by
  intro middle last prior before done doneToo
  obtain ⟨here, leads⟩ := List.cons.inj through.leads
  obtain ⟨there, leadsToo⟩ := List.cons.inj throughToo.leads
  obtain ⟨effect, does, alike⟩ := edit_like here through.notDash plain (by rw [done])
  have still := apart.still leads does
  obtain rfl : holder.turn slot effect = middle := congrArg Prod.fst ((alike holder .refl rfl).symm.trans done)
  have turned := turn_like slot effect holder
  obtain ⟨further, doesToo, alikeToo⟩ := edit_like there throughToo.notDash (turned.plain.trans plain) (by rw [doneToo])
  have stillToo := apartToo.still leadsToo doesToo
  obtain rfl := congrArg Prod.fst ((alikeToo _ .refl rfl).symm.trans doneToo)
  refine ⟨holder.turn other further, _, ?_, ?_, Slot.turn_comm fork still stillToo⟩
  · exact alikeToo holder turned.symm (Slot.child?_turn fork still).symm
  · exact alike _ (turn_like other further holder) (Slot.child?_turn fork.symm stillToo)

/-! Both through a collection that is not set. -/

section Unset
variable {name key otherKey : String} {mappedKey otherMappedKey : Label} {entries : Entries Value}

/-- Right above its last step a way can go through a collection that is not set, and nowhere else. -/
theorem edit_unset (leads : access.slot? = some slot) (inside : slot ≠ .dash) (plain : holder.isPlain = true)
    (nothing : (holder.child? slot).getD .null = .null)
    (done : edit context change access (next :: rest) holder = (after, .ok prior)) :
    rest = [] ∧ ∃ name mappedKey kind, slot = .key name ∧ access = .property (.text name) mappedKey (some kind) ∧
      (edit context change next [] (Access.emptyOf kind)).2 = .ok prior ∧
      (change = .remove ∧ after = holder ∨ change ≠ .remove ∧ ∃ entries, holder = .dict entries ∧
        after = .dict (Entries.put name (edit context change next [] (Access.emptyOf kind)).1 entries)) := by
  cases read : access.read context (rest.length + 1) holder with
  | error obstacle => simp [edit, read] at done
  | ok value =>
    rcases Access.read_below read with ⟨isSet, -, present⟩ | ⟨isUnset, empty, label, mappedKey, kind, rfl, -, rfl⟩
    · rw [Access.child_of_read leads inside plain isSet read, Option.getD_some] at nothing
      subst nothing
      cases present
    · obtain rfl := List.eq_nil_of_length_eq_zero empty
      cases label <;> cases leads
      next name =>
      obtain ⟨inner, outcome⟩ := (edit_of_unset read isUnset).mp done
      refine ⟨rfl, name, mappedKey, kind, rfl, rfl, inner, outcome.imp_right fun stores => ⟨stores.1, ?_⟩⟩
      have edited : Slot.Edited _ (.key name) holder after := Access.write_edited rfl plain stores.2
      cases edited with
      | written given =>
        cases given
        exact ⟨_, rfl, rfl⟩
      | deleted removing => cases removing

/-- What is made up for a position is a list. -/
private theorem list_of_emptied {kind : Collection} (leads : step.slot? = some slot) (position : slot.isPosition = true)
    (done : (edit context change step [] (Access.emptyOf kind)).2 = .ok prior) :
    ∃ items, (edit context change step [] (Access.emptyOf kind)).1 = .list items := by
  have edited : Slot.Edited change slot (Access.emptyOf kind) (edit context change step [] (Access.emptyOf kind)).1 :=
    Access.write_edited leads (by cases kind <;> rfl) (write_of_edit done)
  generalize (edit context change step [] (Access.emptyOf kind)).1 = after at edited
  cases kind with
  | array => cases edited <;> exact ⟨_, rfl⟩
  | map =>
    cases slot with
    | key => cases position
    | index | dash => cases edited

/-- A list has no properties to edit, or to go on through. -/
private theorem not_in_list {items : List Value} (leads : access.slot? = some slot) (single : access.kind? = none) :
    (edit context change access rest (.list items)).2 ≠ .ok prior := by
  have misfit : access.fits (.list items) = false := by cases access <;> first | rfl | cases single
  intro done
  cases rest <;>
    simp [edit, editSlot, Access.read_slot leads (rfl : (Value.list items).isPlain = true), misfit, bind, Except.bind] at done

private theorem map_of_emptied {kind : Collection} (leads : step.slot? = some (.key key))
    (done : (edit context change step [] (Access.emptyOf kind)).2 = .ok prior) : kind = .map := by
  cases kind with
  | map => rfl
  | array => cases Access.write_edited leads rfl (write_of_edit done)

/-- What writing an entry makes of entries that have none under its key. -/
def withEntry (change : Edit) (key : String) (entries : Entries Value) : Entries Value :=
  change.value?.elim entries fun value => Entries.put key value entries

/-- The entries with a map under the name for what was written to it, unless that is nothing. -/
def withMap (name : String) (entries written : Entries Value) : Entries Value :=
  if written.isEmpty then entries else Entries.put name (.dict written) entries

theorem withMap_put (name : String) (entries : Entries Value) (key : String) (value : Value) (written : Entries Value) :
    withMap name entries (Entries.put key value written) = Entries.put name (.dict (Entries.put key value written)) entries := by
  have isSet : (Entries.put key value written).isEmpty = false := by
    cases written with
    | nil => rfl
    | cons entry rest =>
      rw [Entries.put]
      split <;> rfl
  simp [withMap, isSet]

theorem find?_withEntry (apart : key ≠ otherKey) (change : Edit) : Entries.find? otherKey (withEntry change key []) = none := by
  cases change <;> simp [withEntry, Edit.value?, Entries.find?_put, apart]

/-- Entries of a map come to the same in either order, and so does the map that is made up for them. -/
theorem withMap_comm (name : String) (entries : Entries Value) (apart : key ≠ otherKey) (change second : Edit) :
    Reordered (.dict (withMap name entries (withEntry second otherKey (withEntry change key []))))
      (.dict (withMap name entries (withEntry change key (withEntry second otherKey [])))) := by
  unfold withEntry
  cases change.value? with
  | none => exact .same
  | some value =>
    cases second.value? with
    | none => exact .same
    | some later =>
      simp only [Option.elim_some, withMap_put]
      have swapped : Reordered (.dict (Entries.put otherKey later (Entries.put key value [])))
          (.dict (Entries.put key value (Entries.put otherKey later []))) :=
        .keys .dict (Entries.put_comm apart value later []) (Entries.find?_put_comm apart)
      have stored : Reordered ((Value.dict entries).putChild (.key name) _) ((Value.dict entries).putChild (.key name) _) :=
        .inside swapped
      exact stored

/-- A key that a map does not have. -/
theorem edit_absent (leads : step.slot? = some (.key key)) (absence : step.settle 0 none = .ok prior)
    (absent : Entries.find? key entries = none) :
    edit context change step [] (.dict entries) = (.dict (withEntry change key entries), .ok prior) := by
  have fits : step.fits (.dict entries) = true := by cases step <;> first | rfl | cases leads
  have nothing : (Value.dict entries).child? (.key key) = none := absent
  have edited : (Value.dict entries).editChild (.key key) change = .dict (withEntry change key entries) := by
    cases change with
    | add | replace => rfl
    | remove => exact congrArg Value.dict (Entries.erase_of_find? absent)
  simp only [edit, editSlot, Access.read_slot leads (rfl : (Value.dict entries).isPlain = true), fits, nothing, absence,
    Access.write_dict leads, edited, ite_true, mapError_ok, bind, Except.bind, pure, Except.pure]

private theorem unset_map (context : Context) (mappedKey : Label) (nothing : (Entries.find? name entries).getD .null = .null) :
    (Access.property (.text name) mappedKey (some .map)).isUnsetIn context (.dict entries) = true ∧
    (Access.property (.text name) mappedKey (some .map)).read context 1 (.dict entries) = .ok (.dict []) := by
  have read : Access.readProperty context (.text name) mappedKey (.dict entries) = .ok .null := congrArg Except.ok nothing
  constructor
  · simp only [Access.isUnsetIn, read]
    rfl
  · simp only [Access.read, read]
    rfl

private theorem made_up_map (name : String) (entries written : Entries Value) :
    (Value.dict (Entries.put name (.dict written) entries)).child? (.key name) = some (.dict written) := by
  simp [child?, entries?, Entries.find?_put]

/-- A map that is not set is made up for an entry that is written, and not for one that is removed. -/
theorem edit_in_made_up {written : Entries Value} (nothing : (Entries.find? name entries).getD .null = .null)
    (leads : step.slot? = some (.key key)) (absence : step.settle 0 none = .ok prior)
    (absent : Entries.find? key written = none) :
    edit context change (.property (.text name) mappedKey (some .map)) [step] (.dict (withMap name entries written)) =
      (.dict (withMap name entries (withEntry change key written)), .ok prior) := by
  have inner : edit context change step [] (.dict written) = _ := edit_absent leads absence absent
  cases written with
  | nil =>
    obtain ⟨isUnset, read⟩ := unset_map context mappedKey nothing
    change edit context change _ [step] (.dict entries) = _
    refine (edit_of_unset read isUnset).mpr ⟨by rw [inner], ?_⟩
    rw [inner]
    cases change with
    | remove => exact .inl ⟨rfl, rfl⟩
    | add value | replace value => exact .inr ⟨nofun, rfl⟩
  | cons entry rest =>
    change edit context change _ [step] (.dict (Entries.put name (.dict (entry :: rest)) entries)) = _
    rw [edit_inside rfl (made_up_map name entries _) rfl rfl, inner]
    cases change with
    | add value | replace value => simp [withEntry, Edit.value?, withMap_put, putChild, Entries.put_put]
    | remove => simp [withEntry, Edit.value?, withMap, putChild, Entries.put_put]

private theorem absence_of (leads : step.slot? = some (.key key)) : ∃ absence, step.settle 0 none = .ok absence := by
  cases step <;> exact ⟨_, rfl⟩

/-- Nothing is below an entry that a map has just not been made up for. -/
private theorem ends_in_made_up {written : Entries Value} (leads : next.slot? = some (.key name))
    (absent : Entries.find? key written = none)
    (done : (edit context change next (.entry key :: rest) (.dict (Entries.put name (.dict written) entries))).2 = .ok prior) :
    rest = [] := by
  rw [edit_inside leads (made_up_map name entries written) rfl rfl] at done
  cases rest with
  | nil => rfl
  | cons step rest =>
    simp [edit, Access.read_entry, entries?, absent, Access.needElement, isUnset, isMissing] at done

/-- Whichever of two entries of a map that is not set comes first, the map is made up for it. -/
theorem entries_exchange {otherStep : Access} (nothing : (Entries.find? name entries).getD .null = .null)
    (leads : step.slot? = some (.key key)) (leadsToo : otherStep.slot? = some (.key otherKey)) (apart : key ≠ otherKey) :
    Exchange (edit context change (.property (.text name) mappedKey (some .map)) [step])
      (edit context second (.property (.text name) otherMappedKey (some .map)) [otherStep]) (.dict entries) := by
  obtain ⟨absence, absent⟩ := absence_of leads
  obtain ⟨otherAbsence, absentToo⟩ := absence_of leadsToo
  have first {written : Entries Value} (lacks : Entries.find? key written = none) :
      edit context change (.property (.text name) mappedKey (some .map)) [step] (.dict (withMap name entries written)) = _ :=
    edit_in_made_up nothing leads absent lacks
  have last {written : Entries Value} (lacks : Entries.find? otherKey written = none) :
      edit context second (.property (.text name) otherMappedKey (some .map)) [otherStep]
        (.dict (withMap name entries written)) = _ :=
    edit_in_made_up nothing leadsToo absentToo lacks
  intro middle final prior before done doneToo
  cases (first (Entries.find?_nil key)).symm.trans done
  cases (last (find?_withEntry apart change)).symm.trans doneToo
  exact ⟨_, _, last (Entries.find?_nil otherKey), first (find?_withEntry apart.symm second),
    withMap_comm name entries apart change second⟩

end Unset

/-- Where an edit makes up what both ways go through, and both go on to elements, that is a map, and both go on to
entries of it. -/
private theorem map_of_made_up {name : String} {kind : Collection} {otherStep : Access} {below : List Access}
    {further beyond : List Slot} (throughToo : Through (next :: otherStep :: below) (.key name :: other :: beyond))
    (clear : Clear change (.key name :: slot :: further) (.key name :: other :: beyond) (next :: otherStep :: below) holder)
    (ends : further = []) (writes : change ≠ .remove) (nothing : (holder.child? (.key name)).getD .null = .null)
    (leads : step.slot? = some slot) (done : (edit context change step [] (Access.emptyOf kind)).2 = .ok prior)
    (element : slot.isPosition = true → otherStep.kind? ≠ none) :
    kind = .map ∧ ∃ key otherKey mappedKey, slot = .key key ∧ other = .key otherKey ∧ otherStep = .entry otherKey ∧
      next = .property (.text name) mappedKey (some .map) ∧ key ≠ otherKey := by
  subst ends
  obtain ⟨here, further⟩ := List.cons.inj throughToo.leads
  obtain ⟨there, -⟩ := List.cons.inj further
  have above : (holder.at? [.key name]).getD .null = .null := by simpa [at?] using nothing
  rcases clear.notMadeUp writes [] name slot [next] otherStep below rfl above rfl (congrArg ([·]) here) with
    ⟨⟨key, rfl⟩, otherKey, rfl⟩ | ⟨position, single⟩
  · cases there
    obtain ⟨mappedKey, rfl⟩ := Access.property_of_follows here throughToo.coherent.rel
    have apart : key ≠ otherKey := fun same => clear.toApart.tail.head.1 (congrArg Slot.key same.symm)
    exact ⟨map_of_emptied leads done, key, otherKey, mappedKey, rfl, rfl, rfl, rfl, apart⟩
  · exact absurd single (element position)

private theorem unset_exchange {further beyond : List Slot}
    (through : Through (access :: step :: rest) (slot :: further)) (throughToo : Through (next :: below) (slot :: beyond))
    (plain : holder.isPlain = true) (nothing : (holder.child? slot).getD .null = .null)
    (clear : Clear change (slot :: further) (slot :: beyond) (next :: below) holder)
    (clearToo : Clear second (slot :: beyond) (slot :: further) (access :: step :: rest) holder) :
    Exchange (edit context change access (step :: rest)) (edit context second next below) holder := by
  intro middle last prior before done doneToo
  obtain ⟨here, leads⟩ := List.cons.inj through.leads
  obtain ⟨there, leadsToo⟩ := List.cons.inj throughToo.leads
  obtain ⟨other, further, rfl⟩ := clearToo.toApart.tail.cons
  obtain ⟨otherSlot, beyond, rfl⟩ := clear.toApart.tail.cons
  obtain ⟨otherStep, below, rfl, otherLeads, otherEnd⟩ := way_of_slots leadsToo
  obtain ⟨stepLeads, stepEnd⟩ := List.cons.inj leads
  obtain ⟨rfl, name, mappedKey, kind, rfl, rfl, inner, outcome⟩ :=
    edit_unset here (through.notDash (by simp)) plain nothing done
  have ends : further = [] := by simpa using stepEnd.symm
  rcases outcome with ⟨rfl, rfl⟩ | ⟨writes, entries, rfl, made⟩
  · -- the first edit removes, and leaves it to the second to make up the map
    obtain ⟨rfl, label, otherMappedKey, otherKind, same, rfl, innerToo, outcome⟩ :=
      edit_unset there (throughToo.notDash (by simp)) plain nothing doneToo
    cases same
    rcases outcome with ⟨rfl, rfl⟩ | ⟨writesToo, entries, rfl, -⟩
    · exact ⟨_, _, doneToo, done, .same⟩
    have endsToo : beyond = [] := by simpa using otherEnd.symm
    have element : step.kind? = some _ := through.coherent.rel
    obtain ⟨rfl, otherKey, key, label, rfl, rfl, rfl, same, apart⟩ :=
      map_of_made_up through clearToo endsToo writesToo nothing otherLeads innerToo (by simp [element])
    cases same
    exact entries_exchange nothing rfl otherLeads apart.symm _ _ _ _ done doneToo
  · -- the second edit finds the map that the first has made up, and nothing of its own in it
    have element : other.isPosition = true → otherStep.kind? ≠ none := by
      intro position single
      obtain ⟨items, list⟩ := list_of_emptied stepLeads position inner
      have found : middle.child? (.key name) = some (.list items) := by
        rw [made, list]
        simp [child?, entries?, Entries.find?_put]
      rw [edit_inside there found rfl rfl] at doneToo
      exact not_in_list otherLeads single (congrArg Prod.snd doneToo)
    obtain ⟨rfl, key, otherKey, otherMappedKey, rfl, rfl, rfl, rfl, apart⟩ :=
      map_of_made_up throughToo clear ends writes nothing stepLeads inner element
    obtain ⟨absence, absent⟩ := absence_of stepLeads
    have map : edit context change (.property (.text name) mappedKey (some .map)) [step] (.dict (withMap name entries [])) = _ :=
      edit_in_made_up nothing stepLeads absent (Entries.find?_nil key)
    obtain rfl := congrArg Prod.fst (map.symm.trans done)
    have stored : withMap name entries (withEntry change key []) =
        Entries.put name (.dict (withEntry change key [])) entries := by
      cases change <;> first | rfl | exact absurd rfl writes
    obtain rfl := ends_in_made_up there (find?_withEntry apart change) (by rw [← stored, doneToo])
    exact entries_exchange nothing stepLeads rfl apart _ _ _ _ done doneToo

/-- Edits in different places exchange. -/
theorem edits_exchange (through : Through (access :: rest) slots) (throughToo : Through (next :: below) others)
    (plain : holder.throughout isPlain = true) (clear : Clear change slots others (next :: below) holder)
    (clearToo : Clear second others slots (access :: rest) holder) :
    Exchange (edit context change access rest) (edit context second next below) holder := by
  -- over the way of the first edit, as long as the second takes the same slots
  induction rest generalizing access next below slots others holder with
  | nil =>
    obtain ⟨slot, further, rfl, here, leads⟩ := through.cons
    obtain ⟨other, beyond, rfl, there, -⟩ := throughToo.cons
    obtain rfl : further = [] := by simpa using leads.symm
    exact fork_exchange through throughToo (check_of_throughout plain) clear.toApart.head.1.symm clear.toApart clearToo.toApart
  | cons step rest ih =>
    obtain ⟨slot, further, rfl, here, -⟩ := through.cons
    obtain ⟨other, beyond, rfl, there, leads⟩ := throughToo.cons
    by_cases fork : slot ≠ other
    · exact fork_exchange through throughToo (check_of_throughout plain) fork clear.toApart clearToo.toApart
    obtain rfl : slot = other := not_not.mp fork
    by_cases nothing : (holder.child? slot).getD .null = .null
    · exact unset_exchange through throughToo (check_of_throughout plain) nothing clear clearToo
    obtain ⟨part, found⟩ : ∃ part, holder.child? slot = some part := by
      cases found : holder.child? slot with
      | some part => exact ⟨part, rfl⟩
      | none => simp [found] at nothing
    have partPlain := plain_child plain found
    have present : part.isUnset = false := by
      rw [found, Option.getD_some] at nothing
      cases part <;> first | rfl | exact absurd rfl nothing
    have isThere : part.isMissing = false := by
      cases part <;> first | rfl | cases check_of_throughout partPlain
    obtain ⟨otherSlot, beyond, rfl⟩ := clear.toApart.tail.cons
    obtain ⟨otherStep, below, rfl, -, -⟩ := way_of_slots leads
    exact inside_exchange here there through.tail throughToo.tail found partPlain present isThere
      (ih through.tail throughToo.tail partPlain (clear.tail there found) (clearToo.tail here found))

end Route

namespace Pointer
variable {container : Container} {pointer : Pointer}

theorem Reached.through {access : Access} {rest : List Access} (reached : Reached container pointer)
    (way : pointer.route {} = access :: rest) : Route.Through (access :: rest) pointer.slots where
  leads := way ▸ slots_of_route pointer
  coherent := way ▸ reached.coherent
  inside := reached.dash_at_end

/-- Edits through pointers to different places exchange in a record all objects of which are mappings. -/
theorem edits_elsewhere_exchange {registry : Registry} {memory : Memory} {container : Container}
    {pointer other : Pointer} {change second : Edit} {record : Value}
    (reached : Reached container pointer) (otherReached : Reached container other)
    (plain : record.throughout isPlain = true) (apart : Apart change record pointer other)
    (apartToo : Apart second record other pointer) :
    Exchange (pointer.edit { registry, memory } change) (other.edit { registry, memory } second) record := by
  intro middle last prior before done doneToo
  obtain ⟨access, rest, way, walk⟩ := edit_walks done
  obtain ⟨next, below, otherWay, otherWalk⟩ := edit_walks doneToo
  have clear : Route.Clear change pointer.slots other.slots (next :: below) record :=
    ⟨apart.toApart, otherWay ▸ apart.madeUpApart⟩
  have clearToo : Route.Clear second other.slots pointer.slots (access :: rest) record :=
    ⟨apartToo.toApart, way ▸ apartToo.madeUpApart⟩
  obtain ⟨other, final, first, second, reordered⟩ :=
    Route.edits_exchange (reached.through way) (otherReached.through otherWay) plain clear clearToo
      _ _ _ _ ((walk ..).mp done) ((otherWalk ..).mp doneToo)
  exact ⟨other, final, (otherWalk ..).mpr first, (walk ..).mpr second, reordered⟩

private theorem notes_apart {key otherKey : String} (differ : key ≠ otherKey) (change : Edit) (record : Value) :
    Apart change record (Orders.note key) (Orders.note otherKey) := by
  have aside {first last : String} (differ : first ≠ last) :
      ¬ [Slot.key "notes", .key first] <+: [Slot.key "notes", .key last] := by simpa using differ
  refine ⟨.of_key [.key "notes"] (aside differ) (aside differ.symm), ?_⟩
  rintro - - step within notRoot below
  simp only [Orders.note, chain, List.cons_append, List.nil_append, List.mem_cons, List.not_mem_nil, or_false] at within
  rcases within with rfl | rfl | rfl
  · cases notRoot
  · cases below
  · exact .inl ⟨rfl, rfl⟩

/-- There are no notes yet, and the first of two makes them up. -/
theorem notes_in_either_order :
    Reached Orders.container (Orders.note "first") ∧ Reached Orders.container (Orders.note "second") ∧
    (Value.dict []).throughout isPlain = true ∧
    Apart (.add (.text "new")) (.dict []) (Orders.note "first") (Orders.note "second") ∧
    Apart (.replace (.text "newer")) (.dict []) (Orders.note "second") (Orders.note "first") ∧
    ∃ last other final,
      (Orders.note "first").edit { registry := Orders.registry } (.add (.text "new")) (.dict []) =
        (.dict [("notes", .dict [("first", .text "new")])], .ok .missing) ∧
      (Orders.note "second").edit { registry := Orders.registry } (.replace (.text "newer"))
        (.dict [("notes", .dict [("first", .text "new")])]) = (last, .ok .missing) ∧
      (Orders.note "second").edit { registry := Orders.registry } (.replace (.text "newer")) (.dict []) =
        (other, .ok .missing) ∧
      (Orders.note "first").edit { registry := Orders.registry } (.add (.text "new")) other = (final, .ok .missing) ∧
      Reordered last final := by
  have apart := notes_apart (show "first" ≠ "second" by decide) (.add (.text "new")) (.dict [])
  have apartToo := notes_apart (show "second" ≠ "first" by decide) (.replace (.text "newer")) (.dict [])
  have exchange : Exchange ((Orders.note "first").edit { registry := Orders.registry } (.add (.text "new")))
      ((Orders.note "second").edit { registry := Orders.registry } (.replace (.text "newer"))) (.dict []) :=
    edits_elsewhere_exchange (note_reached _) (note_reached _) rfl apart apartToo
  obtain ⟨other, final, second, first, reordered⟩ := exchange _ _ _ _ rfl rfl
  exact ⟨note_reached _, note_reached _, rfl, apart, apartToo, _, other, final, rfl, rfl, second, first, reordered⟩

/-- The details of a note of an event are a map, and those of a shipment an object, and both are under the same name.
An object is not made up, but the map that is made up for an entry does for one. -/
theorem name_waits_for_made_up_details :
    ∃ pointer other middle last fault,
      (parse { registry := Orders.registry } Orders.events true (.text "/NOTED:details/first")).outcome = .ok pointer ∧
      (parse { registry := Orders.registry } Orders.events true (.text "/SHIPPED:details/name")).outcome = .ok other ∧
      (Value.dict []).throughout isPlain = true ∧
      Slot.Apart (.add (.text "new")) pointer.slots other.slots ∧
      Slot.Apart (.replace (.text "Ann")) other.slots pointer.slots ∧
      pointer.edit { registry := Orders.registry } (.add (.text "new")) (.dict []) = (middle, .ok .missing) ∧
      other.edit { registry := Orders.registry } (.replace (.text "Ann")) middle = (last, .ok .null) ∧
      other.edit { registry := Orders.registry } (.replace (.text "Ann")) (.dict []) = (.dict [], .error (.data fault)) := by
  refine ⟨_, _, _, _, _, rfl, rfl, rfl, ?_, ?_, rfl, rfl, rfl⟩
  · exact Slot.Apart.of_key [.key "details"] (by decide) (by decide)
  · exact Slot.Apart.of_key [.key "details"] (by decide) (by decide)

end Pointer
end RecordAddress
