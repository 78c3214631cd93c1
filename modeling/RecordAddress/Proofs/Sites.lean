import RecordAddress.Proofs.Atomicity
import RecordAddress.Proofs.Keeping
import RecordAddress.Proofs.PriorValue

/-! Where an edit takes place. Its last step is taken from what the rest of the way leads to, or from an empty
collection that stands in for one that is unset, and the record is built up again around what becomes of that. -/

namespace RecordAddress
open Value

namespace Value
variable {holder part later : Value} {key : String}

private theorem isMapping_keepAttribute : (holder.keepAttribute key part).isMapping = holder.isMapping := by
  cases holder with
  | location =>
    simp only [keepAttribute]
    split_ifs <;> rfl
  | _ => rfl

private theorem keepAttribute_further {tokens : Value} {attributes : Entries Value} (path : key ≠ pathKey)
    (parts : key ≠ tokensKey) : (location tokens attributes).keepAttribute key part =
      if Entries.contains key attributes then location tokens (Entries.put key part attributes)
      else location tokens attributes := by
  simp only [keepAttribute, path, parts, ite_false]

private theorem contains_put (key : String) (part : Value) (attributes : Entries Value) :
    Entries.contains key (Entries.put key part attributes) = true := by
  rw [Entries.contains, Entries.find?_put, if_pos rfl, Option.isSome_some]

private theorem keepAttribute_keepAttribute :
    (holder.keepAttribute key part).keepAttribute key later = holder.keepAttribute key later := by
  cases holder with
  | object => simp only [keepAttribute, Entries.put_put]
  | location tokens attributes =>
    by_cases path : key = pathKey
    · simp only [keepAttribute, path, ite_true]
    by_cases parts : key = tokensKey
    · subst parts
      rfl
    cases known : Entries.contains key attributes with
    | true =>
      have first : (location tokens attributes).keepAttribute key part =
          if Entries.contains key attributes then location tokens (Entries.put key part attributes)
          else location tokens attributes := keepAttribute_further path parts
      rw [first, known, if_pos rfl, keepAttribute_further path parts, contains_put, if_pos rfl, Entries.put_put,
        keepAttribute_further path parts, known, if_pos rfl]
    | false =>
      have kept (part : Value) : (location tokens attributes).keepAttribute key part = location tokens attributes := by
        rw [keepAttribute_further path parts, known, if_neg Bool.false_ne_true]
      rw [kept part]
  | _ => rfl

end Value

namespace Access
variable {access : Access} {change : Edit} {holder part later edited stored : Value} {name mappedKey : Label}
  {collection : Option Collection}

private theorem absorb_mapped {key : String} (noMapping : holder.isMapping = false) :
    (property name (.text key) collection).absorb part holder = holder.keepAttribute key part := by
  cases name <;> cases holder <;> first | rfl | cases noMapping

/-- Of what is absorbed one after the other, the last one stays. -/
theorem absorb_absorb (access : Access) (part later holder : Value) :
    access.absorb later (access.absorb part holder) = access.absorb later holder := by
  cases access with
  | property name mappedKey =>
    cases mapping : holder.isMapping with
    | true =>
      cases holder with
      | dict | view => cases name <;> cases mappedKey <;> simp [absorb, Entries.put_put, keepAttribute]
      | _ => cases mapping
    | false =>
      cases mappedKey with
      | text key =>
        have still : (holder.keepAttribute key part).isMapping = false := isMapping_keepAttribute.trans mapping
        rw [absorb_mapped mapping, absorb_mapped still, absorb_mapped mapping, keepAttribute_keepAttribute]
      | other | unusable => cases name <;> cases holder <;> first | rfl | cases mapping
  | position => cases holder <;> simp [absorb]
  | entry => cases holder <;> simp [absorb, Entries.put_put]
  | afterLast | noEntry => rfl

/-- What has taken a write holds others. -/
theorem holder_of_write (own : holder.isOwn = true) (written : access.write change holder = .ok edited) :
    holder.isHolder = true ∧ edited.isHolder = true := by
  cases (write_eq_ok own).mp written <;> exact ⟨rfl, rfl⟩

/-- A property that was written is written again by absorbing, and what was written first is forgotten. -/
theorem write_twice (own : holder.isOwn = true) (given : change.value? = some part)
    (written : (property name mappedKey collection).write change holder = .ok stored) (later : Value) :
    let last := (property name mappedKey collection).absorb later stored
    (property name mappedKey collection).write (.replace later) stored = .ok last ∧
      (property name mappedKey collection).write (.replace later) holder = .ok last := by
  have replaces : (Edit.replace later).value? = some later := rfl
  cases (write_eq_ok own).mp written with
  | put =>
    refine ⟨(write_eq_ok rfl).mpr (.put replaces), ?_⟩
    simp only [absorb, Entries.put_put]
    exact (write_eq_ok rfl).mpr (.put replaces)
  | erased removed | nowhere removed =>
    subst removed
    cases given
  | set =>
    rw [absorb_mapped rfl]
    refine ⟨(write_eq_ok rfl).mpr .set, ?_⟩
    simp only [keepAttribute, Entries.put_put]
    exact (write_eq_ok rfl).mpr .set
  | tokens =>
    rw [absorb_mapped rfl]
    exact ⟨(write_eq_ok rfl).mpr .tokens, (write_eq_ok rfl).mpr .tokens⟩
  | further path parts =>
    rw [absorb_mapped rfl, keepAttribute_further path parts, contains_put, if_pos rfl]
    refine ⟨(write_eq_ok rfl).mpr (.further path parts), ?_⟩
    simp only [Entries.put_put]
    exact (write_eq_ok rfl).mpr (.further path parts)

/-- Elements of an array are written to lists alone, and none is removed from an empty one. -/
theorem list_of_write (own : holder.isOwn = true) (isElement : access.kind? = some .array)
    (written : access.write change holder = .ok edited) :
    ∃ items later, holder = .list items ∧ edited = .list later ∧ (change.value? = none → items ≠ []) := by
  cases (write_eq_ok own).mp written with
  | put | erased | nowhere | set | tokens | further | entered | dropped | noEntry => cases isElement
  | item inside =>
    refine ⟨_, _, rfl, rfl, ?_⟩
    rintro - rfl
    cases inside
  | appended added =>
    subst added
    exact ⟨_, _, rfl, rfl, nofun⟩

end Access

namespace Route
variable {registry : Registry} {memory : Memory} {change : Edit} {access next last : Access} {rest way above below : List Access}
  {record holder part place later after prior value : Value} {store : Edit → Value → Option Value}

/-- The record after what the way leads to has become something else. -/
def rebuild : List Access → Value → Value → Value
  | [], _, part => part
  | access :: way, holder, part =>
    match access.read {} (way.length + 1) holder with
    | .ok inner => access.absorb (rebuild way inner part) holder
    | .error _ => holder

theorem rebuild_step (finds : access.Finds holder part) :
    rebuild (access :: way) holder later = access.absorb (rebuild way part later) holder := by
  rw [rebuild, finds]

/-- A way that ends in something that is set goes on from there. -/
theorem Along.append (along : Along above record holder) (isSet : above ≠ [] → holder.isUnset = false)
    (further : Along below holder value) : Along (above ++ below) record value := by
  induction along with
  | here => exact further
  | @step _ way _ _ _ own finds _ ih =>
    refine .step own finds (ih ?_ further)
    exact fun _ => isSet (List.cons_ne_nil _ _)
  | unset => cases isSet (List.cons_ne_nil _ _)

/-- Reading goes on below a part of the record that is found as it would from that part alone. -/
theorem Along.read_append (along : Along way record place) (isSet : way ≠ [] → place.isUnset = false) :
    Route.read { registry, memory } (way ++ below) record = Route.read { registry, memory } below place := by
  induction along with
  | here => rfl
  | step own finds _ ih =>
    rw [List.cons_append, read_step ((Access.read_own own).trans (finds _))]
    exact ih fun _ => isSet (List.cons_ne_nil _ _)
  | unset => cases isSet (List.cons_ne_nil _ _)

/-- Below a part of the record that is found, an edit is made in that part, and the record is built up again. -/
theorem Along.edit (along : Along way record place) (isSet : way ≠ [] → place.isUnset = false)
    (whole : way ++ next :: below = access :: rest) :
    Route.edit { registry, memory } change access rest record =
      (rebuild way record (Route.edit { registry, memory } change next below place).1,
        (Route.edit { registry, memory } change next below place).2) := by
  induction along generalizing access rest with
  | here =>
    cases whole
    rfl
  | @step _ way holder part place own finds _ ih =>
    obtain ⟨second, further, goesOn⟩ := exists_first way next below
    obtain ⟨rfl, rfl⟩ := List.cons.inj ((congrArg (_ :: ·) goesOn).symm.trans whole)
    rw [edit_below own finds, ih (fun _ => isSet (List.cons_ne_nil _ _)) goesOn, rebuild_step finds]
  | unset => cases isSet (List.cons_ne_nil _ _)

theorem Along.outcome (along : Along way record place) (isSet : way ≠ [] → place.isUnset = false)
    (whole : way ++ next :: below = access :: rest) :
    (Route.edit { registry, memory } change access rest record).2 = (Route.edit { registry, memory } change next below place).2 := by
  rw [along.edit isSet whole]

/-- What is at the end of a way can be changed for something else that holds others. -/
theorem Along.rebuilt (along : Along way record place) (before : place.isHolder = true) (kept : later.isHolder = true) :
    Along way (rebuild way record later) later ∧ record.isHolder = true ∧ (rebuild way record later).isHolder = true := by
  induction along with
  | here => exact ⟨.here, before, kept⟩
  | @step _ way holder part place own finds _ ih =>
    obtain ⟨again, holds, stillHolds⟩ := ih before
    obtain ⟨holderHolds, absorbed, findsAgain⟩ := finds.absorb own holds stillHolds
    rw [rebuild_step finds]
    exact ⟨.step (own_of_holder absorbed) findsAgain again, holderHolds, absorbed⟩
  | unset => cases before

theorem Along.rebuild_rebuild (along : Along way record place) (before : place.isHolder = true)
    (kept : later.isHolder = true) (last : Value) :
    rebuild way (rebuild way record later) last = rebuild way record last := by
  induction along with
  | here => rfl
  | @step _ way holder part place own finds below ih =>
    obtain ⟨-, holds, stillHolds⟩ := below.rebuilt before kept
    obtain ⟨-, -, findsAgain⟩ := finds.absorb own holds stillHolds
    rw [rebuild_step finds, rebuild_step findsAgain, Access.absorb_absorb, ih before, rebuild_step finds]
  | unset => cases before

/-- With the same thing at its end, a way leads through the same record. -/
theorem Along.rebuild_same (along : Along way record place) (isSet : way ≠ [] → place.isUnset = false) :
    rebuild way record place = record := by
  induction along with
  | here => rfl
  | step own finds _ ih =>
    rw [rebuild_step finds, ih fun _ => isSet (List.cons_ne_nil _ _), Access.absorb_of_read finds.isSet (finds 1)]
  | unset => cases isSet (List.cons_ne_nil _ _)

/-- Nothing but parts of the record is met on a way through them. -/
theorem Along.trace_own (along : Along way record place) (own : place.isOwn = true) :
    ∀ met ∈ trace { registry, memory } way record, met.isOwn = true := by
  induction along with
  | here => simpa [trace] using own
  | step ownHolder finds _ ih =>
    rw [trace, (Access.read_own ownHolder).trans (finds _)]
    exact List.forall_mem_cons.mpr ⟨ownHolder, ih own⟩
  | @unset name mappedKey collection holder ownHolder nothing =>
    have null : (Access.property name mappedKey collection).read { registry, memory } 0 holder = .ok .null := by
      rw [Access.read_own ownHolder]
      simp only [Access.read, nothing]
      rfl
    simp [trace, null, ownHolder, own]

theorem Along.rebuild_append (along : Along above record holder) (isSet : above ≠ [] → holder.isUnset = false) :
    rebuild (above ++ below) record later = rebuild above record (rebuild below holder later) := by
  induction along with
  | here => rfl
  | @step _ way holder part place own finds _ ih =>
    rw [List.cons_append, rebuild_step finds, rebuild_step finds, ih fun _ => isSet (List.cons_ne_nil _ _)]
  | unset => cases isSet (List.cons_ne_nil _ _)

private theorem object_of_readProperty {name mappedKey : Label}
    (read : Access.readProperty {} name mappedKey holder = .ok value) : holder.isUnset = false := by
  cases holder <;> first | rfl | cases read

/-- A way goes on to a property that is unset, and ends there. -/
theorem Along.to_unset {name mappedKey : Label} {collection : Option Collection} (along : Along above record holder)
    (own : holder.isOwn = true) (nothing : Access.readProperty {} name mappedKey holder = .ok .null) :
    Along (above ++ [.property name mappedKey collection]) record .null :=
  along.append (fun _ => object_of_readProperty nothing) (.unset own nothing)

/-- What a made-up collection leaves of the record when a change has made something of it. It is stored if a value was
given for it. -/
def storeMadeUp (above : List Access) (record holder : Value) (name mappedKey : Label) (kind : Collection) (change : Edit)
    (later : Value) : Option Value :=
  match change.value? with
  | none => some record
  | some _ =>
    ((Access.property name mappedKey (some kind)).write (.replace later) holder).toOption.map (rebuild above record)

theorem storeMadeUp_eq_some {name mappedKey : Label} {kind : Collection} :
    storeMadeUp above record holder name mappedKey kind change later = some after ↔
      change = .remove ∧ after = record ∨
      change ≠ .remove ∧ ∃ stored, (Access.property name mappedKey (some kind)).write (.replace later) holder = .ok stored ∧
        rebuild above record stored = after := by
  cases change with
  | remove => simp [storeMadeUp, Edit.value?, eq_comm]
  | add | replace => simp [storeMadeUp, Edit.value?, toOption_eq_some]

/-- Where the last step is taken after a way: what it is taken from, and what becomes of the record when a change has
made something of that. An empty collection may stand in for a property that is unset. -/
inductive Site : List Access → Value → Value → (Edit → Value → Option Value) → Prop
  | found {way : List Access} {record place : Value} : Along way record place → (way ≠ [] → place.isUnset = false) →
      Site way record place fun _ later => some (rebuild way record later)
  | madeUp {above : List Access} {record holder : Value} {name mappedKey : Label} {kind : Collection} :
      Along above record holder → holder.isOwn = true → Access.readProperty {} name mappedKey holder = .ok .null →
      Site (above ++ [.property name mappedKey (some kind)]) record (Access.emptyOf kind)
        (storeMadeUp above record holder name mappedKey kind)

/-- A way through parts of the record that can be read comes to the site of its last step. -/
theorem site_of_read (got : read { registry, memory } (way ++ [last]) record = .ok value)
    (own : ∀ met ∈ trace { registry, memory } way record, met.isOwn = true) :
    ∃ place store, Site way record place store ∧ place.isOwn = true ∧ last.read {} 0 place = .ok value := by
  induction way generalizing record with
  | nil =>
    have ownRecord : record.isOwn = true := own record List.mem_cons_self
    rw [List.nil_append, read_last, mapError_eq_ok, Access.read_own ownRecord] at got
    exact ⟨record, _, .found .here fun none => absurd rfl none, ownRecord, got⟩
  | cons access way ih =>
    simp only [List.cons_append, read, bind_eq_ok, mapError_eq_ok, List.length_append, List.length_singleton] at got
    obtain ⟨part, reached, got⟩ := got
    have ownRecord : record.isOwn = true := by
      apply own
      rw [trace]
      split <;> exact List.mem_cons_self
    rw [Access.read_own ownRecord] at reached
    rcases Access.read_below reached with ⟨isSet, -, present⟩ | ⟨-, empty, name, mappedKey, kind, rfl, isUnset, rfl⟩
    · have finds := Access.finds_of_read isSet reached
      have shallow : access.read { registry, memory } way.length record = .ok part :=
        (Access.read_own ownRecord).trans (finds _)
      rw [trace, shallow] at own
      obtain ⟨place, store, site, ownPlace, read⟩ := ih got (List.forall_mem_cons.mp own).2
      cases site with
      | found along settled =>
        refine ⟨place, _, .found (.step ownRecord finds along) fun _ => ?_, ownPlace, read⟩
        cases along with
        | here => exact present
        | step | unset => exact settled (List.cons_ne_nil _ _)
      | madeUp along ownHolder nothing =>
        exact ⟨_, _, .madeUp (.step ownRecord finds along) ownHolder nothing, ownPlace, read⟩
    · obtain rfl := List.eq_nil_of_length_eq_zero empty
      have ownPlace : (Access.emptyOf kind).isOwn = true := by cases kind <;> rfl
      rw [List.nil_append, read_last, mapError_eq_ok, Access.read_own ownPlace] at got
      have site : Site ([] ++ [.property name mappedKey (some kind)]) record (Access.emptyOf kind) _ :=
        .madeUp .here ownRecord isUnset
      exact ⟨_, _, site, ownPlace, got⟩

/-- The last step of an edit is made at its place alone. -/
theorem edit_last_eq_ok (own : place.isOwn = true) :
    edit { registry, memory } change last [] place = (later, .ok prior) ↔
      last.read {} 0 place = .ok prior ∧ last.write change place = .ok later := by
  have reads : last.read { registry, memory } 0 place = last.read {} 0 place := Access.read_own own
  rw [← reads]
  simp only [edit, editSlot]
  cases last.read { registry, memory } 0 place with
  | error => simp [bind, Except.bind]
  | ok value => cases last.write change place <;> simp [bind, Except.bind, pure, Except.pure, and_comm]

private theorem unset_property {name mappedKey : Label} {kind : Collection} (own : holder.isOwn = true)
    (nothing : Access.readProperty {} name mappedKey holder = .ok .null) :
    (Access.property name mappedKey (some kind)).read { registry, memory } 1 holder = .ok (Access.emptyOf kind) ∧
      (Access.property name mappedKey (some kind)).isUnsetIn { registry, memory } holder = true := by
  rw [Access.read_own own, Access.isUnsetIn_own own]
  simp only [Access.read, Access.isUnsetIn, nothing]
  exact ⟨rfl, rfl⟩

/-- The last step reads what is at its place. -/
theorem Site.read_eq_ok (site : Site way record place store) (own : place.isOwn = true) :
    Route.read { registry, memory } (way ++ [last]) record = .ok value ↔ last.read {} 0 place = .ok value := by
  have here : Route.read { registry, memory } [last] place = .ok value ↔ last.read {} 0 place = .ok value := by
    rw [read_last, mapError_eq_ok, Access.read_own own]
  cases site with
  | found along isSet => rw [along.read_append isSet, here]
  | madeUp along ownHolder nothing =>
    obtain ⟨reached, -⟩ := unset_property ownHolder nothing
    rw [List.append_assoc, along.read_append fun _ => object_of_readProperty nothing, List.singleton_append,
      read_step reached, here]

private theorem anchor_step (own : holder.isOwn = true) (reached : access.read { registry, memory } rest.length holder = .ok part) :
    anchor? { registry, memory } (access :: rest) holder = anchor? { registry, memory } rest part := by
  have notHere : anchor? { registry, memory } (access :: rest) holder = (anchor? { registry, memory } rest part).or none := by
    simp only [anchor?, reached, Option.orElse_eq_orElse, Option.orElse_eq_or]
    cases holder <;> first | rfl | cases own
  rw [notHere, Option.or_none]

theorem anchor_of_last (own : holder.isOwn = true) : anchor? { registry, memory } [last] holder = none := by
  simp only [anchor?]
  cases holder <;> first | cases own; done | (split <;> rfl)

theorem Along.anchor_append (along : Along way record place) (isSet : way ≠ [] → place.isUnset = false) :
    anchor? { registry, memory } (way ++ below) record = anchor? { registry, memory } below place := by
  induction along with
  | here => rfl
  | step own finds _ ih =>
    rw [List.cons_append, anchor_step own ((Access.read_own own).trans (finds _))]
    exact ih fun _ => isSet (List.cons_ne_nil _ _)
  | unset => cases isSet (List.cons_ne_nil _ _)

/-- The way itself leads to the place, or to nothing where the place was made up. -/
theorem Site.read_place (site : Site way record place store) (registry : Registry) (memory : Memory) :
    Route.read { registry, memory } way record = .ok place ∨
      Route.read { registry, memory } way record = .ok .null ∧ ∃ kind, place = Access.emptyOf kind := by
  cases site with
  | found along => exact .inl (along.read registry memory)
  | madeUp along ownHolder nothing => exact .inr ⟨(along.to_unset ownHolder nothing).read registry memory, _, rfl⟩

/-- Nothing on the way to a site describes a record type. -/
theorem Site.anchor_eq_none (site : Site way record place store) (own : place.isOwn = true) :
    anchor? { registry, memory } (way ++ [last]) record = none := by
  cases site with
  | found along isSet => rw [along.anchor_append isSet, anchor_of_last own]
  | madeUp along ownHolder nothing =>
    obtain ⟨reached, -⟩ := unset_property ownHolder nothing
    rw [List.append_assoc, along.anchor_append fun _ => object_of_readProperty nothing, List.singleton_append,
      anchor_step ownHolder reached, anchor_of_last own]

/-- An edit is made at the site, and what becomes of the place is stored. -/
theorem Site.edit_iff (site : Site way record place store) (whole : way ++ [last] = access :: rest) :
    edit { registry, memory } change access rest record = (after, .ok prior) ↔
      ∃ later, edit { registry, memory } change last [] place = (later, .ok prior) ∧ store change later = some after := by
  cases site with
  | found along isSet =>
    rw [along.edit isSet whole]
    simp only [Prod.ext_iff, Option.some.injEq]
    constructor
    · rintro ⟨rfl, done⟩
      exact ⟨_, ⟨rfl, done⟩, rfl⟩
    · rintro ⟨later, ⟨rfl, done⟩, rfl⟩
      exact ⟨rfl, done⟩
  | @madeUp above _ holder name mappedKey kind along own nothing =>
    obtain ⟨read, isUnset⟩ : (Access.property name mappedKey (some kind)).read { registry, memory } 1 holder =
        .ok (Access.emptyOf kind) ∧ (Access.property name mappedKey (some kind)).isUnsetIn { registry, memory } holder = true :=
      unset_property own nothing
    rw [List.append_assoc, List.singleton_append] at whole
    rw [along.edit (fun _ => object_of_readProperty nothing) whole]
    have same := along.rebuild_same fun _ => object_of_readProperty nothing
    have made (stored : Value) : edit { registry, memory } change (.property name mappedKey (some kind)) [last] holder =
        (stored, .ok prior) ↔ _ := edit_of_unset read isUnset
    constructor
    · intro done
      obtain ⟨rebuilt, outcome⟩ := Prod.mk.inj done
      obtain ⟨inner, stores⟩ := (made _).mp (Prod.ext rfl outcome)
      refine ⟨_, Prod.ext rfl inner, storeMadeUp_eq_some.mpr ?_⟩
      rcases stores with ⟨removes, kept⟩ | ⟨given, written⟩
      · exact .inl ⟨removes, rebuilt.symm.trans ((congrArg (rebuild above record) kept).trans same)⟩
      · exact .inr ⟨given, _, written, rebuilt⟩
    · rintro ⟨later, inner, stores⟩
      rcases storeMadeUp_eq_some.mp stores with ⟨removes, rfl⟩ | ⟨given, stored, written, rebuilt⟩
      · rw [(made holder).mpr ⟨congrArg Prod.snd inner, .inl ⟨removes, rfl⟩⟩, same]
      · rw [(made stored).mpr ⟨congrArg Prod.snd inner, .inr ⟨given, by rwa [inner]⟩⟩, rebuilt]

/-- What was stored at a site is found there, and can be changed there again. -/
theorem Site.again (site : Site way record place store) (before : place.isHolder = true) (kept : later.isHolder = true)
    (given : change.value? = some value) (stored : store change later = some after) :
    Along way after later ∧ ∀ (next : Edit) last, next.value?.isSome = true → store next last = some (rebuild way after last) := by
  cases site with
  | found along isSet =>
    obtain rfl := Option.some.inj stored
    exact ⟨(along.rebuilt before kept).1, fun _ last _ => congrArg some (along.rebuild_rebuild before kept last).symm⟩
  | @madeUp above _ holder name mappedKey kind along own nothing =>
    simp only [storeMadeUp, given] at stored
    obtain ⟨inner, written, rfl⟩ := Option.map_eq_some_iff.mp stored
    rw [toOption_eq_some] at written
    obtain ⟨holds, stillHolds, finds⟩ := Access.finds_of_write own written kept
    obtain ⟨again, -, -⟩ := along.rebuilt holds stillHolds
    have isSet : above ≠ [] → inner.isUnset = false := fun _ => (set_of_holder stillHolds).1
    refine ⟨again.append isSet (.step (own_of_holder stillHolds) finds .here), fun next last gives => ?_⟩
    obtain ⟨other, gives⟩ := Option.isSome_iff_exists.mp gives
    simp only [storeMadeUp, gives]
    rw [(Access.write_twice own rfl written last).2, again.rebuild_append isSet, rebuild_step finds,
      along.rebuild_rebuild holds stillHolds]
    rfl

/-- What was stored at a site is found there, unless it was made up and nothing was given to be stored. -/
theorem Site.stored_along (site : Site way record place store) (before : place.isHolder = true) (kept : later.isHolder = true)
    (stored : store change later = some after) :
    Along way after later ∨ change.value? = none ∧ ∃ kind, place = Access.emptyOf kind := by
  cases given : change.value? with
  | some value => exact .inl (site.again before kept given stored).1
  | none =>
    cases site with
    | found along =>
      obtain rfl := Option.some.inj stored
      exact .inl (along.rebuilt before kept).1
    | madeUp => exact .inr ⟨rfl, _, rfl⟩

/-- An edit of an element is made in the array alone, or in one made up for it, and what becomes of the array is read
at its place afterwards. -/
theorem Along.edited (along : Along way record value) (array : value = .null ∨ ∃ items, value = .list items)
    (isElement : last.kind? = some .array) (whole : way ++ [last] = access :: rest)
    (done : Route.edit { registry, memory } change access rest record = (after, .ok prior)) :
    ∃ later, Route.edit { registry, memory } change last [] (.list (value.items?.getD [])) = (.list later, .ok prior) ∧
      Along way after (.list later) := by
  have ownValue : value.isOwn = true := by rcases array with rfl | ⟨items, rfl⟩ <;> rfl
  have got : Route.read { registry, memory } (way ++ [last]) record = .ok prior := by
    rw [whole]
    exact edit_prior (congrArg Prod.snd done)
  obtain ⟨place, store, site, own, -⟩ := site_of_read got (along.trace_own ownValue)
  obtain ⟨edited, inner, stored⟩ := (site.edit_iff whole).mp done
  obtain ⟨items, later, rfl, rfl, removing⟩ := Access.list_of_write own isElement ((edit_last_eq_ok own).mp inner).2
  have same : value.items?.getD [] = items := by
    rcases site.read_place registry memory with here | ⟨nothing, kind, empty⟩
    · cases (along.read registry memory).symm.trans here
      rfl
    · cases (along.read registry memory).symm.trans nothing
      cases kind <;> cases empty
      rfl
  refine ⟨later, same ▸ inner, ?_⟩
  rcases site.stored_along rfl rfl stored with kept | ⟨removes, kind, empty⟩
  · exact kept
  · cases kind <;> cases empty
    exact absurd rfl (removing removes)

end Route

namespace Pointer
variable {registry : Registry} {memory : Memory} {pointer : Pointer} {change : Edit} {last : Access}
  {record place after prior value : Value} {store : Edit → Value → Option Value}

theorem notRoot_of_proper (proper : pointer.misuse? {} change = none) : pointer.isRoot = false := by
  cases root : pointer.isRoot with
  | false => rfl
  | true => cases change <;> simp [misuse?, misuse?.ofValue, root] at proper

theorem proper_of_edit (done : pointer.edit { registry, memory } change record = (after, .ok prior)) :
    pointer.misuse? {} change = none := by
  cases misuse : pointer.misuse? {} change with
  | none => rfl
  | some misuse =>
    simp only [edit, misuse] at done
    cases done

/-- The last step of a pointer, which is taken from what its parent leads to. -/
inductive EndsWith : Pointer → Access → Prop
  | property (parent : Pointer) (token : String) (target : Property) (children : Option Container) :
      EndsWith (.property parent token target children) (accessOf {} target)
  | element (parent : Pointer) (token : String) (index : ElementIndex) : EndsWith (.element parent token index) index.access

theorem EndsWith.route (ends : pointer.EndsWith last) : pointer.route {} = pointer.parent.route {} ++ [last] := by
  cases ends with
  | property => rfl
  | element => exact route_of_element

theorem exists_endsWith (notRoot : pointer.isRoot = false) : ∃ last, pointer.EndsWith last := by
  cases pointer with
  | root => cases notRoot
  | property parent token target children => exact ⟨_, .property ..⟩
  | element parent token index => exact ⟨_, .element ..⟩

/-- What is above a property is no collection. -/
theorem no_collection_above {parent : Pointer} {token : String} {target : Property} {children : Option Container}
    (reached : Reached container (.property parent token target children)) :
    ∀ last ∈ (parent.route {}).getLast?, last.collection? = none := by
  intro last within
  cases parent with
  | root => cases within
  | property above before outer inner =>
    obtain rfl : accessOf {} outer = last := by simpa [route] using within
    simpa [accessOf, Access.collection?] using reached.property_below_single rfl
  | element above before index =>
    obtain rfl : index.access = last := by simpa [route_of_element] using within
    cases index <;> rfl

theorem edit_eq_ok (proper : pointer.misuse? {} change = none) {access : Access} {rest : List Access}
    (way : pointer.route {} = access :: rest) :
    pointer.edit { registry, memory } change record = (after, .ok prior) ↔
      Route.edit { registry, memory } change access rest record = (after, .ok prior) := by
  simp only [edit, proper, way, Prod.ext_iff, mapError_eq_ok]

theorem get_of_edit (done : pointer.edit { registry, memory } change record = (after, .ok prior)) :
    pointer.get { registry, memory } record = .ok prior := by
  have proper := proper_of_edit done
  obtain ⟨last, ends⟩ := exists_endsWith (notRoot_of_proper proper)
  obtain ⟨access, rest, whole⟩ := Route.exists_first (pointer.parent.route {}) last []
  have walked := (edit_eq_ok proper (ends.route.trans whole)).mp done
  refine mapError_eq_ok.mpr ?_
  rw [ends.route, whole]
  exact Route.edit_prior (congrArg Prod.snd walked)

/-- What can be read through parts of the record stands at a site. -/
theorem site_of_get (ends : pointer.EndsWith last) (got : pointer.get { registry, memory } record = .ok value)
    (own : ∀ met ∈ Route.trace { registry, memory } (pointer.parent.route {}) record, met.isOwn = true) :
    ∃ place store, Route.Site (pointer.parent.route {}) record place store ∧ place.isOwn = true ∧
      last.read {} 0 place = .ok value := by
  have read := mapError_eq_ok.mp got
  rw [ends.route] at read
  exact Route.site_of_read read own

section At
variable (ends : pointer.EndsWith last) (site : Route.Site (pointer.parent.route {}) record place store)
  (own : place.isOwn = true)
include ends site own

theorem get_at : pointer.get { registry, memory } record = .ok value ↔ last.read {} 0 place = .ok value := by
  rw [get, mapError_eq_ok, ends.route]
  exact site.read_eq_ok own

theorem edit_at (proper : pointer.misuse? {} change = none) :
    pointer.edit { registry, memory } change record = (after, .ok prior) ↔
      last.read {} 0 place = .ok prior ∧ ∃ later, last.write change place = .ok later ∧ store change later = some after := by
  obtain ⟨access, rest, whole⟩ := Route.exists_first (pointer.parent.route {}) last []
  rw [edit_eq_ok proper (ends.route.trans whole), site.edit_iff whole]
  simp only [Route.edit_last_eq_ok own, and_assoc, exists_and_left]

theorem amend_at : pointer.amend { registry, memory } change record = {} := by
  have nothing : Route.anchor? { registry, memory } (pointer.parent.route {} ++ [last]) record = none :=
    site.anchor_eq_none own
  simp only [amend, Route.amend, ends.route, nothing, ite_self]

end At

/-- An edit through parts of the record is a write to what stands at a site. -/
theorem site_of_edit (ends : pointer.EndsWith last)
    (done : pointer.edit { registry, memory } change record = (after, .ok prior))
    (own : ∀ met ∈ Route.trace { registry, memory } (pointer.parent.route {}) record, met.isOwn = true) :
    ∃ place store edited, Route.Site (pointer.parent.route {}) record place store ∧ place.isOwn = true ∧
      last.read {} 0 place = .ok prior ∧ last.write change place = .ok edited ∧ store change edited = some after := by
  obtain ⟨place, store, site, ownPlace, -⟩ := site_of_get ends (get_of_edit done) own
  obtain ⟨read, edited, written, stored⟩ := (edit_at ends site ownPlace (proper_of_edit done)).mp done
  exact ⟨place, store, edited, site, ownPlace, read, written, stored⟩

/-- Below a site that is a list, what its items are can be read. -/
theorem position_at {parent : Pointer} {items : List Value} (site : Route.Site (parent.route {}) record (.list items) store)
    (token : String) (position : Nat) :
    (element parent token (.position position)).get { registry, memory } record = .ok (items[position]?.getD .missing) := by
  rw [get_at (.element ..) site rfl, ElementIndex.access, Access.read_position]
  rfl

theorem adds_after_last {parent : Pointer} {token : String}
    (proper : (Pointer.element parent token .afterLast).misuse? {} change = none) : ∃ value, change = .add value := by
  have dash : (Pointer.element parent token .afterLast).isDash = true := rfl
  cases change with
  | add value => exact ⟨value, rfl⟩
  | replace value => simp [misuse?, dash] at proper
  | remove => simp [misuse?, dash, isRoot] at proper

end Pointer
end RecordAddress
