import RecordAddress.Proofs.Opened

/-! Genuine containers, those that are opened at their place whenever that is done anew. Where nothing else
is remembered, what is remembered makes no difference to what is opened. -/

namespace RecordAddress
variable {registry : Registry} {memory : Memory} {roots : Schema → Prop} {schema : Schema}
  {container outer : Container} {place : Place} {segment : Segment} {property : Property}

/-- The property that a segment of a place stands for. -/
def Container.at? (container : Container) : Segment → Option Property
  | .property name => container.property? name
  | .subtype name => container.subtype? name

theorem Container.place_of_ofSchema {path : String} {place : Option Place}
    (opened : Container.ofSchema schema path place = .ok container) : container.place = place := by
  obtain ⟨-, -, rfl⟩ := Container.ofSchema_eq_ok opened
  rfl

theorem Container.place_of_at? (found : container.at? segment = some property) :
    property.place = container.place.map (·.below segment) := by
  cases segment <;> obtain ⟨_, -, rfl⟩ := Option.map_eq_some_iff.mp found <;> rfl

/-- The containers that are opened at a place from a registry: root ones of some schemas, and below these what
their properties and subtypes refer to. -/
inductive Container.Genuine (registry : Registry) (roots : Schema → Prop) : Place → Container → Prop
  | root {schema : Schema} {container : Container} : roots schema →
      Container.ofSchema schema "" (some { ground := .schema schema.id }) = .ok container →
      Genuine registry roots { ground := .schema schema.id } container
  | nested {place : Place} {outer inner : Container} {segment : Segment} {property : Property}
      {reference : Reference Schema} {target : Schema} : Genuine registry roots place outer →
      outer.at? segment = some property → property.field.content = .nested reference →
      registry.target reference = .ok target →
      Container.ofSchema target property.nestedPath (some (place.below segment)) = .ok inner →
      Genuine registry roots (place.below segment) inner

/-- A container that either stands nowhere or is the genuine one of its place. -/
def Container.Trusted (registry : Registry) (roots : Schema → Prop) (container : Container) : Prop :=
  ∀ place, container.place = some place → container.Genuine registry roots place

/-- Schemas that are told apart by their numbers. -/
def Distinct (roots : Schema → Prop) : Prop :=
  ∀ first second, roots first → roots second → first.id = second.id → first = second

namespace Container.Genuine

theorem place_eq (genuine : container.Genuine registry roots place) : container.place = some place := by
  cases genuine with
  | root _ opened => exact place_of_ofSchema opened
  | nested _ _ _ _ opened => exact place_of_ofSchema opened

/-- There is only one genuine container of a place. -/
theorem unique (distinct : Distinct roots) {other : Container} (genuine : container.Genuine registry roots place)
    (otherGenuine : other.Genuine registry roots place) : other = container := by
  induction genuine generalizing other with
  | @root schema container isRoot opened =>
    generalize start : ({ ground := .schema schema.id } : Place) = place at otherGenuine
    cases otherGenuine with
    | @root otherSchema _ otherRoot otherOpened =>
      have ids : schema.id = otherSchema.id := by simpa using start
      obtain rfl := distinct _ _ isRoot otherRoot ids
      exact Except.ok.inj (otherOpened.symm.trans opened)
    | nested => exact absurd start.symm (Place.below_ne_ground _ _ _)
  | @nested place outer inner segment property reference target above has content found opened ih =>
    generalize end_ : place.below segment = there at otherGenuine
    cases otherGenuine with
    | root => exact absurd end_ (Place.below_ne_ground _ _ _)
    | nested otherAbove otherHas otherContent otherFound otherOpened =>
      obtain ⟨rfl, rfl⟩ := Place.below_inj end_
      obtain rfl := ih otherAbove
      cases has.symm.trans otherHas
      cases content.symm.trans otherContent
      cases found.symm.trans otherFound
      exact Except.ok.inj (otherOpened.symm.trans opened)

/-- Genuine containers are opened from schemas. -/
theorem ground_ne_loose (genuine : container.Genuine registry roots place) : place.ground ≠ .loose := by
  induction genuine with
  | root => exact Ground.noConfusion
  | nested above _ _ _ _ ih => exact ih

theorem trusted (genuine : container.Genuine registry roots place) : container.Trusted registry roots := by
  intro there standing
  obtain rfl := Option.some.inj (standing.symm.trans genuine.place_eq)
  exact genuine

/-- What is genuine stays so while classes are registered under new record types. -/
theorem mono {later : Registry} {laterRoots : Schema → Prop} (genuine : container.Genuine registry roots place)
    (registered : ∀ reference target, registry.target reference = .ok target → later.target reference = .ok target)
    (known : ∀ schema, roots schema → laterRoots schema) : container.Genuine later laterRoots place := by
  induction genuine with
  | root isRoot opened => exact .root (known _ isRoot) opened
  | nested _ has content found opened ih => exact .nested ih has content (registered _ _ found) opened

end Container.Genuine

/-- All that is remembered is genuine. -/
def Memory.Genuine (registry : Registry) (roots : Schema → Prop) (memory : Memory) : Prop :=
  ∀ place container, memory.known? place = some container → container.Genuine registry roots place

namespace Memory

theorem genuine_of_empty : Memory.Genuine registry roots {} := by
  intro place container known
  cases known

theorem Genuine.remember (genuine : memory.Genuine registry roots) (trusted : container.Trusted registry roots) :
    (memory.remember container).Genuine registry roots := by
  intro place other known
  unfold Memory.remember at known
  split at known
  next there standing =>
    split at known
    next =>
      simp only [known?, Entries.find?_cons] at known
      split at known
      next same =>
        subst same
        cases known
        exact trusted _ standing
      next => exact genuine place other known
    next => exact genuine place other known
  next => exact genuine place other known

theorem Genuine.rememberAll {containers : List Container} (genuine : memory.Genuine registry roots)
    (trusted : ∀ container ∈ containers, container.Trusted registry roots) :
    (memory.rememberAll containers).Genuine registry roots :=
  List.foldlRecOn containers Memory.remember genuine fun _ genuine container within =>
    genuine.remember (trusted container within)

theorem forgetful_remembers_nothing (containers : List Container) : forgetful.rememberAll containers = forgetful := by
  induction containers with
  | nil => rfl
  | cons container rest ih =>
    have nothing : forgetful.remember container = forgetful := by
      unfold remember
      split <;> rfl
    rw [rememberAll, List.foldl_cons, nothing]
    exact ih

end Memory

namespace Context

theorem opener_unknown {place : Option Place} (unknown : place.bind memory.known? = none) (path : String)
    (reference : Reference Schema) :
    ({ registry, memory } : Context).opener place path reference =
      (registry.target reference >>= fun target => Container.ofSchema target path place) := by
  simp only [opener, unknown]
  rfl

/-- A genuine container that is remembered is what would be opened in its place. -/
theorem opener_forgotten {place : Place} {path : String} {reference : Reference Schema}
    (remembered : ∀ container, memory.known? place = some container →
      (registry.target reference >>= fun target => Container.ofSchema target path (some place)) = .ok container) :
    ({ registry, memory } : Context).opener (some place) path reference =
      ({ registry, memory := .forgetful } : Context).opener (some place) path reference := by
  have anew : ({ registry, memory := .forgetful } : Context).opener (some place) path reference = _ :=
    opener_unknown rfl path reference
  rw [anew]
  cases known : memory.known? place with
  | none =>
    have unknown : (some place).bind memory.known? = none := known
    exact opener_unknown unknown path reference
  | some container =>
    simp only [opener, Option.bind_some, known]
    exact (remembered container known).symm

/-- The root container of a schema is the same whether or not it was opened before. -/
theorem root_forgotten (distinct : Distinct roots) (genuine : memory.Genuine registry roots) (isRoot : roots schema) :
    ({ registry, memory } : Context).root schema = ({ registry, memory := .forgetful } : Context).root schema := by
  have same : ({ registry, memory } : Context).opener (some { ground := .schema schema.id }) "" (.schema schema) =
      ({ registry, memory := .forgetful } : Context).opener (some { ground := .schema schema.id }) "" (.schema schema) := by
    apply opener_forgotten
    intro container known
    have standing := genuine _ _ known
    generalize start : ({ ground := .schema schema.id } : Place) = place at standing
    cases standing with
    | @root other _ otherRoot opened =>
      have ids : schema.id = other.id := by simpa using start
      obtain rfl := distinct _ _ isRoot otherRoot ids
      exact opened
    | nested => exact absurd start.symm (Place.below_ne_ground _ _ _)
  simp only [root, Amendments.isEmpty_unchanged, ite_true, Container.root, same]

theorem root_anew (opened : ({ registry, memory := .forgetful } : Context).root schema = .ok container) :
    Container.ofSchema schema "" (some { ground := .schema schema.id }) = .ok container := by
  have anew : ({ registry, memory := .forgetful } : Context).opener (some { ground := .schema schema.id }) ""
      (.schema schema) = Container.ofSchema schema "" (some { ground := .schema schema.id }) := rfl
  simp only [root, Amendments.isEmpty_unchanged, ite_true, Container.root, anew] at opened
  cases hidden : schema.hidden.contains Operation.rootContainer with
  | true =>
    rw [hidden] at opened
    cases opened
  | false =>
    cases mixin : schema.isMixin with
    | true =>
      rw [hidden, mixin] at opened
      cases opened
    | false =>
      rw [hidden, mixin] at opened
      exact opened

theorem root_trusted (isRoot : roots schema)
    (opened : ({ registry, memory := .forgetful } : Context).root schema = .ok container) :
    container.Trusted registry roots :=
  (Container.Genuine.root isRoot (root_anew opened)).trusted

/-- What is nested in a property of a trusted container is the same whether or not it was opened before. -/
theorem nested_forgotten (distinct : Distinct roots) (genuine : memory.Genuine registry roots)
    (trusted : outer.Trusted registry roots) (has : outer.at? segment = some property) :
    ({ registry, memory } : Context).nested property = ({ registry, memory := .forgetful } : Context).nested property := by
  simp only [nested, Amendments.isEmpty_unchanged, ite_true, Property.nested]
  cases content : property.field.content with
  | scalar type => rfl
  | nested reference =>
    simp only
    congr 1
    cases standing : outer.place with
    | none =>
      have nowhere : property.place = none := by rw [Container.place_of_at? has, standing]; rfl
      rw [nowhere, opener_unknown rfl, opener_unknown rfl]
    | some place =>
      have there : property.place = some (place.below segment) := by rw [Container.place_of_at? has, standing]; rfl
      rw [there]
      apply opener_forgotten
      intro container known
      have remembered := genuine _ _ known
      generalize end_ : place.below segment = below at remembered
      cases remembered with
      | root => exact absurd end_ (Place.below_ne_ground _ _ _)
      | nested above otherHas otherContent found opened =>
        obtain ⟨rfl, rfl⟩ := Place.below_inj end_
        obtain rfl := (trusted _ standing).unique distinct above
        cases has.symm.trans otherHas
        cases content.symm.trans otherContent
        rw [found]
        exact opened

/-- A property that stands on its own is not remembered. -/
theorem loose_forgotten (genuine : memory.Genuine registry roots) (loose : property.place = some { ground := .loose }) :
    ({ registry, memory } : Context).nested property = ({ registry, memory := .forgetful } : Context).nested property := by
  simp only [nested, Amendments.isEmpty_unchanged, ite_true, Property.nested, loose]
  cases property.field.content with
  | scalar type => rfl
  | nested reference =>
    simp only
    congr 1
    apply opener_forgotten
    intro container known
    exact absurd rfl (genuine _ _ known).ground_ne_loose

theorem opener_of_nested (opened : ({ registry, memory } : Context).nested property = .ok (some container)) :
    ∃ reference, property.field.content = .nested reference ∧
      ({ registry, memory } : Context).opener property.place property.nestedPath reference = .ok container := by
  simp only [nested, Amendments.isEmpty_unchanged, ite_true, Property.nested] at opened
  cases content : property.field.content with
  | scalar type => simp [content] at opened
  | nested reference =>
    simp only [content] at opened
    cases outcome : ({ registry, memory } : Context).opener property.place property.nestedPath reference with
    | error fault =>
      rw [outcome] at opened
      cases opened
    | ok inner =>
      rw [outcome] at opened
      cases opened
      exact ⟨reference, rfl, outcome⟩

/-- With nothing remembered, what is nested in a property is opened from the schema that the property refers to. -/
theorem nested_anew (opened : ({ registry, memory := .forgetful } : Context).nested property = .ok (some container)) :
    ∃ reference target, property.field.content = .nested reference ∧ registry.target reference = .ok target ∧
      Container.ofSchema target property.nestedPath property.place = .ok container := by
  obtain ⟨reference, content, outcome⟩ := opener_of_nested opened
  have unknown : property.place.bind Memory.forgetful.known? = none := by cases property.place <;> rfl
  rw [opener_unknown unknown, bind_eq_ok] at outcome
  obtain ⟨target, found, made⟩ := outcome
  exact ⟨reference, target, content, found, made⟩

theorem nested_trusted (trusted : outer.Trusted registry roots) (has : outer.at? segment = some property)
    (opened : ({ registry, memory := .forgetful } : Context).nested property = .ok (some container)) :
    container.Trusted registry roots := by
  obtain ⟨reference, target, content, found, made⟩ := nested_anew opened
  intro place standing
  have same := Container.place_of_ofSchema made
  rw [standing, Container.place_of_at? has] at same
  obtain ⟨above, outerStanding, rfl⟩ := Option.map_eq_some_iff.mp same.symm
  rw [Container.place_of_at? has, outerStanding] at made
  exact .nested (trusted _ outerStanding) has content found made

end Context
end RecordAddress
