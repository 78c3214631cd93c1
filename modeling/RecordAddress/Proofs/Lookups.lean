import RecordAddress.Proofs.Definitions
import RecordAddress.Proofs.Forgetting

/-! What the steps of a session look up. Classes that are known have containers that are trusted, and values
that are given without pointers inside are inert. -/

namespace RecordAddress.Session
open Session.Action

variable {α : Type} {registry : Registry} {known : Schema → Prop} {schema : Schema} {cls : Class} {container : Container}

/-! Classes and containers. -/

theorem labelled_repeats (label : String) : (labelled label).Repeats registry known (known ·.outline) := by
  apply Repeats.get
  intro session sound _
  refine ⟨_, rfl, rfl, ?_⟩
  apply (Repeats.find fun cls found => sound.labels _ (Entries.mem_of_find? found)).bind
  intro cls isKnown
  rw [sound.unamended]
  exact .pure isKnown

theorem offering_repeats (operation : Operation) (isKnown : known cls.outline) :
    (offering operation cls).Repeats registry known known := by
  apply Repeats.amended.bind
  rintro amendments rfl
  split
  · exact .throw_bind
  · exact .find fun schema offered => (Class.schema_of_schema? offered).1 ▸ isKnown

theorem rootContainer_repeats (isKnown : known schema) :
    (rootContainer schema).Repeats registry known (·.Trusted registry known) := by
  apply Repeats.opening
  intro distinct memory genuine
  exact Context.rootOpening_repeats distinct genuine isKnown

theorem classContainer_repeats (isKnown : known cls.outline) :
    (classContainer cls).Repeats registry known (·.Trusted registry known) := by
  unfold classContainer
  cases offered : cls.schema? with
  | some schema => exact rootContainer_repeats ((Class.schema_of_schema? offered).1 ▸ isKnown)
  | none =>
    apply Repeats.amended.bind
    intro amendments _
    exact .throw

theorem parseAt_repeats (trusted : container.Trusted registry known) (dashAllowed : Bool) (pointer : Value) :
    (parseAt container dashAllowed pointer).Repeats registry known (·.Trusted registry known) := by
  have parsing : (opening .ofPointer fun context => Pointer.parse context container dashAllowed pointer).Repeats
      registry known (·.Trusted registry known) := by
    apply Repeats.opening
    intro distinct memory genuine
    exact Pointer.parse_repeats distinct genuine trusted
  apply parsing.bind
  intro parsed parsedTrusted
  apply Repeats.find_any.bind
  intro name _
  apply Repeats.settle_any.bind
  intro written _
  apply (Repeats.report _).bind
  intro _ _
  exact .pure parsedTrusted

theorem parseAtRoot_repeats (text : String) :
    (parseAtRoot text).Repeats registry known (·.Trusted registry known) := by
  apply Repeats.get
  intro session _ _
  refine ⟨_, rfl, rfl, ?_⟩
  apply (labelled_repeats session.rootLabel).bind
  intro cls isKnown
  apply (classContainer_repeats isKnown).bind
  intro container trusted
  exact parseAt_repeats trusted true (.text text)

/-! Values as they are given. -/

mutual
/-- Whether the value comes without pointers inside. -/
def Given.isInert : Given → Bool
  | .plain _ => true
  | .list items | .tuple items | .set items => areInert items
  | .dict entries | .view entries | .object entries => entriesInert entries
  | .location _ => true
  | .pointer _ => false

def areInert : List Given → Bool
  | [] => true
  | item :: rest => item.isInert && areInert rest

def entriesInert : List (String × Given) → Bool
  | [] => true
  | (_, value) :: rest => value.isInert && entriesInert rest
end

/-- An operation that makes pointers of texts the same way whatever was opened before. -/
abbrev RepeatsEach (registry : Registry) (known : Schema → Prop) (pointerOf : String → Action Pointer)
    (good : Pointer → Prop) : Prop :=
  ∀ text, (pointerOf text).Repeats registry known good

theorem Datum.inert (datum : Datum) : datum.value.Inert := by
  cases datum <;> rfl

section
variable {pointerOf : String → Action Pointer} {good : Pointer → Prop}

mutual
theorem value_repeats (repeats : RepeatsEach registry known pointerOf good) (given : Given) :
    (given.value pointerOf).Repeats registry known fun value => given.isInert = true → value.Inert := by
  cases given with
  | plain datum => exact .pure fun _ => datum.inert
  | list items =>
    rw [Given.value]
    apply (items_repeat repeats items).bind
    intro values inert
    exact .pure fun given => (Value.inert_items rfl).mpr (inert given)
  | tuple items =>
    rw [Given.value]
    apply (items_repeat repeats items).bind
    intro values inert
    exact .pure fun given => (Value.inert_items rfl).mpr (inert given)
  | set items =>
    rw [Given.value]
    apply (items_repeat repeats items).bind
    intro values inert
    exact .pure fun given => Value.inert_setOf (inert given)
  | dict entries =>
    rw [Given.value]
    apply (entries_repeat repeats entries).bind
    intro values inert
    exact .pure fun given => (Value.inert_entries rfl).mpr (Value.inert_ofList (inert given))
  | view entries =>
    rw [Given.value]
    apply (entries_repeat repeats entries).bind
    intro values inert
    exact .pure fun given => (Value.inert_entries rfl).mpr (Value.inert_ofList (inert given))
  | object entries =>
    rw [Given.value]
    apply (entries_repeat repeats entries).bind
    intro values inert
    exact .pure fun given => Value.inert_object.mpr (Value.inert_ofList (inert given))
  | location path =>
    rw [Given.value]
    apply Repeats.raise_any.bind
    intro location _
    exact .pure fun _ => Value.inert_ofLocation location
  | pointer path =>
    rw [Given.value]
    apply (repeats path).bind
    intro pointer _
    exact .pure nofun

theorem items_repeat (repeats : RepeatsEach registry known pointerOf good) (items : List Given) :
    (givenItems pointerOf items).Repeats registry known fun values =>
      areInert items = true → ∀ value ∈ values, value.Inert := by
  cases items with
  | nil =>
    rw [givenItems]
    exact .pure fun _ => nofun
  | cons item rest =>
    rw [givenItems]
    apply (value_repeats repeats item).bind
    intro value inert
    apply (items_repeat repeats rest).bind
    intro values allInert
    apply Repeats.pure
    intro given
    simp only [areInert, Bool.and_eq_true] at given
    rintro other within
    rcases List.mem_cons.mp within with rfl | later
    · exact inert given.1
    · exact allInert given.2 other later

theorem entries_repeat (repeats : RepeatsEach registry known pointerOf good) (entries : List (String × Given)) :
    (givenEntries pointerOf entries).Repeats registry known fun values =>
      entriesInert entries = true → ∀ entry ∈ values, entry.2.Inert := by
  match entries with
  | [] =>
    rw [givenEntries]
    exact .pure fun _ => nofun
  | (key, given) :: rest =>
    rw [givenEntries]
    apply (value_repeats repeats given).bind
    intro value inert
    apply (entries_repeat repeats rest).bind
    intro values allInert
    apply Repeats.pure
    intro given
    simp only [entriesInert, Bool.and_eq_true] at given
    rintro other within
    rcases List.mem_cons.mp within with rfl | later
    · exact inert given.1
    · exact allInert given.2 other later
end

end

theorem accept_repeats (given : Given) :
    given.accept.Repeats registry known fun value => given.isInert = true → value.Inert :=
  value_repeats parseAtRoot_repeats given

theorem acceptBare_repeats (given : Given) : given.acceptBare.Repeats registry known fun _ => True := by
  have refused (text : String) : (throw .notOffered : Action Pointer).Repeats registry known fun _ => True := .throw
  exact (value_repeats refused given).weaken fun _ _ => trivial

/-! What steps refer to. -/

theorem pointer_repeats (source : PointerSource) :
    source.pointer.Repeats registry known (·.Trusted registry known) := by
  cases source with
  | text path => exact parseAtRoot_repeats path
  | «variable» name =>
    apply Repeats.get
    rintro session sound rfl
    exact ⟨_, rfl, rfl, .find fun pointer found => sound.pointers _ (Entries.mem_of_find? found)⟩

/-- A class that is known, or a container that is trusted. -/
def Target.Trusted (registry : Registry) (known : Schema → Prop) : Target → Prop
  | ofClass cls => known cls.outline
  | ofContainer container => container.Trusted registry known
  | ofValue _ => True

theorem target_repeats (source : TypeSource) : source.target.Repeats registry known (·.Trusted registry known) := by
  cases source with
  | root =>
    apply Repeats.get
    intro session _ _
    refine ⟨_, rfl, rfl, ?_⟩
    apply (labelled_repeats session.rootLabel).bind
    intro cls isKnown
    exact .pure isKnown
  | label given =>
    apply (labelled_repeats given).bind
    intro cls isKnown
    exact .pure isKnown
  | container given =>
    apply (labelled_repeats given).bind
    intro cls isKnown
    apply (offering_repeats .rootContainer isKnown).bind
    intro schema schemaKnown
    apply (rootContainer_repeats schemaKnown).bind
    intro container trusted
    exact .pure trusted
  | name recordType => exact .pure trivial
  | value given =>
    apply (acceptBare_repeats given).bind
    intro value _
    exact .pure trivial

theorem shows_repeats (operation : Operation) (target : Target) :
    (target.shows operation).Repeats registry known fun _ => True := by
  cases target with
  | ofClass cls =>
    apply Repeats.amended.bind
    intro amendments _
    exact .pure trivial
  | ofContainer container => exact .pure trivial
  | ofValue value =>
    unfold Target.shows
    split <;> first | exact .pure trivial | contradiction

/-- A registry of known classes. -/
abbrev Knows (known : Schema → Prop) (registry : Registry) : Prop :=
  ∀ entry ∈ registry.entries, known entry.2

theorem choice_repeats (choice : RegistryChoice) : choice.registry.Repeats registry known (Knows known) := by
  apply Repeats.get
  intro session sound _
  cases choice with
  | shared => exact ⟨_, rfl, rfl, .pure sound.registry⟩
  | spare => exact ⟨_, rfl, rfl, .pure sound.spare⟩

variable {target : Target} {chosen : Registry}

theorem known_of_find? {key : Value} (knows : Knows known chosen) (found : chosen.find? key = some schema) :
    known schema := by
  obtain ⟨entry, within, rfl⟩ := Option.map_eq_some_iff.mp found
  exact knows entry (List.mem_of_find?_eq_some within)

theorem entryOf_repeats (knows : Knows known chosen) (key : Value) :
    (entryOf chosen key).Repeats registry known known := by
  unfold entryOf
  split
  · exact .throw_bind
  · exact .find fun schema found => known_of_find? knows found

theorem schemaIn_repeats (knows : Knows known chosen) (target : Target) :
    (target.schemaIn chosen).Repeats registry known known := by
  cases target with
  | ofClass cls =>
    apply Repeats.settle_any.bind
    intro key _
    exact entryOf_repeats knows key
  | ofContainer container =>
    apply Repeats.settle_any.bind
    intro written _
    exact .throw
  | ofValue value => exact entryOf_repeats knows value

theorem toContainer_repeats (trusted : target.Trusted registry known) :
    target.toContainer.Repeats registry known (·.Trusted registry known) := by
  unfold Target.toContainer
  split
  next cls => exact classContainer_repeats trusted
  next container => exact .pure trusted
  next name =>
    apply Repeats.get
    intro session sound _
    refine ⟨_, rfl, rfl, ?_⟩
    apply (entryOf_repeats sound.registry (.text name)).bind
    intro schema isKnown
    exact rootContainer_repeats isKnown
  next =>
    apply (shows_repeats _ _).bind
    intro shown _
    cases shown with
    | true => exact .throw_bind
    | false =>
      apply Repeats.find_any.bind
      intro written _
      exact .throw

theorem ownContainer_repeats (trusted : target.Trusted registry known) :
    target.ownContainer.Repeats registry known (·.Trusted registry known) := by
  unfold Target.ownContainer
  split
  next cls =>
    apply (offering_repeats .parse trusted).bind
    intro schema isKnown
    exact rootContainer_repeats isKnown
  next => exact .throw

private theorem subtype_unchanged {name : String} {property : Property}
    (found : ({} : Amendments).subtype container name = .ok property) : container.subtype? name = some property := by
  simp only [Amendments.subtype, Amendments.setAt?_unchanged, bind_eq_ok] at found
  obtain ⟨_, -, found⟩ := found
  cases listed : container.subtype? name with
  | none => simp [listed] at found
  | some other =>
    rw [listed] at found
    exact congrArg some (Except.ok.inj found)

private theorem at?_of_unchanged {segment : Segment} {property : Property}
    (found : (match segment with
      | .property name => ({} : Amendments).property container name
      | .subtype name => ({} : Amendments).subtype container name) = .ok property) :
    container.at? segment = some property := by
  cases segment with
  | property name => exact Amendments.property_unchanged.mp found
  | subtype name => exact subtype_unchanged found

theorem stepInto_repeats {container? : Option Container}
    (trusted : ∀ container, container? = some container → container.Trusted registry known) (segment : Segment) :
    (stepInto container? segment).Repeats registry known
      fun nested => ∀ container, nested = some container → container.Trusted registry known := by
  apply (Repeats.find trusted).bind
  intro container inside
  have rooted : (settle fun amendments =>
      match segment with
      | .property name => amendments.property container name
      | .subtype name => amendments.subtype container name).Repeats registry known (·.Rooted registry known) := by
    apply Repeats.settle
    intro property found
    exact ⟨container, segment, inside, at?_of_unchanged found⟩
  apply rooted.bind
  intro property isRooted
  apply Repeats.opening
  intro distinct memory genuine
  exact Context.nestedOpening_repeats distinct genuine isRooted

theorem summarized_repeats (container : Container) : (summarized container).Repeats registry known fun _ => True :=
  .settle_any

theorem told_repeats (container : Container) (names : List String) :
    (told container names).Repeats registry known fun _ => True :=
  .settle_any

theorem labelOf_repeats (schema : Schema) : (labelOf schema).Repeats registry known fun _ => True := by
  apply Repeats.get
  intro session _ _
  exact ⟨_, rfl, rfl, .find fun _ _ => trivial⟩

theorem acceptSource_repeats (source : Report.Source Given) :
    (acceptSource source).Repeats registry known fun _ => True := by
  have accepts (given? : Option Given) : (given?.mapM Given.accept).Repeats registry known fun _ => True :=
    .mapOption fun given _ => (accept_repeats given).weaken fun _ _ => trivial
  apply (accepts _).bind
  intro detail _
  apply (accepts _).bind
  intro extra _
  apply (accepts _).bind
  intro pointer _
  apply (accepts _).bind
  intro reason _
  exact .pure trivial

end RecordAddress.Session
