import RecordAddress.Proofs.Genuine

/-! Memories that last. Containers that were opened once are met again at their places, whatever has become of
the classes that they were opened from. -/

namespace RecordAddress
variable {registry : Registry} {memory later : Memory} {schema : Schema} {container inner : Container} {place : Place}
  {property : Property}

/-- A container that was opened from a schema, wherever it stands. -/
def Container.Described (container : Container) : Prop :=
  ∃ schema place, container.Opens schema place

/-- How far below the start a container stands. -/
def Container.depth (container : Container) : Nat :=
  (container.place.map Place.depth).getD 0

theorem Container.Opens.depth_eq (opens : container.Opens schema place) : container.depth = place.depth := by
  simp [Container.depth, opens.place]

theorem Container.Opens.place_of_at? {segment : Segment} (opens : container.Opens schema place)
    (found : container.at? segment = some property) : property.place = some (place.below segment) := by
  rw [Container.place_of_at? found, opens.place]
  rfl

theorem Container.Opens.shallower {innerSchema : Schema} {segment : Segment} (opens : container.Opens schema place)
    (below : inner.Opens innerSchema (place.below segment)) : container.depth < inner.depth := by
  simp [opens.depth_eq, below.depth_eq, Place.below]

namespace Memory

/-- A memory of containers that were opened from schemas, which takes in what is opened next. -/
structure Lasting (memory : Memory) : Prop where
  keeps : memory.keeps = true
  opens : ∀ place container, memory.known? place = some container → ∃ schema, container.Opens schema place

/-- What is known stays known. -/
def Grows (memory later : Memory) : Prop :=
  ∀ place container, memory.known? place = some container → later.known? place = some container

/-- The container is the one that is met at its place. -/
def Holds (memory : Memory) (container : Container) : Prop :=
  ∀ place, container.place = some place → memory.known? place = some container

/-- No other container is met at the place of this one. -/
def Admits (memory : Memory) (container : Container) : Prop :=
  ∀ place other, container.place = some place → memory.known? place = some other → other = container

/-- Both meet the same containers at all places that are deeper. -/
def AgreesBelow (depth : Nat) (memory other : Memory) : Prop :=
  ∀ place, depth < place.depth → memory.known? place = other.known? place

theorem Grows.refl (memory : Memory) : memory.Grows memory :=
  fun _ _ known => known

theorem Grows.trans {latest : Memory} (first : memory.Grows later) (last : later.Grows latest) : memory.Grows latest :=
  fun place container known => last place container (first place container known)

theorem Holds.mono (holds : memory.Holds container) (grows : memory.Grows later) : later.Holds container :=
  fun place standing => grows place container (holds place standing)

/-- Only the place of the container itself can become known, and only by that container. -/
theorem known?_after (memory : Memory) (container : Container) (other : Place) :
    (memory.remember container).known? other = memory.known? other ∨
      (container.place = some other ∧ memory.known? other = none ∧
        (memory.remember container).known? other = some container) := by
  cases standing : container.place with
  | none => simp [remember, standing]
  | some place =>
    cases keeps : memory.keeps with
    | false => simp [remember, standing, keeps]
    | true =>
      rw [known?_remember keeps standing]
      by_cases same : place = other
      · cases known : memory.known? other <;> simp [same]
      · simp [same]

theorem grows_remember (memory : Memory) (container : Container) : memory.Grows (memory.remember container) := by
  intro place other known
  rcases known?_after memory container place with same | ⟨-, unknown, -⟩
  · exact same.trans known
  · cases known.symm.trans unknown

theorem grows_rememberAll (memory : Memory) (containers : List Container) :
    memory.Grows (memory.rememberAll containers) :=
  List.foldlRecOn containers remember (Grows.refl memory) fun later grows container _ =>
    grows.trans (grows_remember later container)

theorem lasting_of_empty : Memory.Lasting {} where
  keeps := rfl
  opens _ _ known := by cases known

theorem Lasting.remember (lasting : memory.Lasting) (described : container.Described) :
    (memory.remember container).Lasting where
  keeps := by
    unfold Memory.remember
    split
    · split <;> exact lasting.keeps
    · exact lasting.keeps
  opens place other known := by
    rcases known?_after memory container place with same | ⟨standing, -, new⟩
    · exact lasting.opens place other (same.symm.trans known)
    · obtain ⟨schema, there, opens⟩ := described
      cases new.symm.trans known
      cases standing.symm.trans opens.place
      exact ⟨schema, opens⟩

theorem Lasting.rememberAll {containers : List Container} (lasting : memory.Lasting)
    (described : ∀ container ∈ containers, container.Described) :
    (memory.rememberAll containers).Lasting :=
  List.foldlRecOn containers Memory.remember lasting fun _ lasting container within =>
    lasting.remember (described container within)

theorem Lasting.holds_remember (lasting : memory.Lasting) (admits : memory.Admits container) :
    (memory.remember container).Holds container := by
  intro place standing
  rw [known?_remember lasting.keeps standing, if_pos rfl]
  cases known : memory.known? place with
  | none => rfl
  | some other => rw [admits place other standing known]; rfl

/-- Containers that are opened one below the other all stay. -/
theorem Lasting.holds_rememberAll {containers : List Container} (lasting : memory.Lasting)
    (described : ∀ container ∈ containers, container.Described)
    (admits : ∀ container ∈ containers, memory.Admits container)
    (descends : containers.Pairwise fun outer inner => outer.depth < inner.depth) :
    ∀ container ∈ containers, (memory.rememberAll containers).Holds container := by
  induction containers generalizing memory with
  | nil => exact nofun
  | cons first rest ih =>
    obtain ⟨deeper, descends⟩ := List.pairwise_cons.mp descends
    have after := lasting.remember (described first List.mem_cons_self)
    -- the first one takes no place of the others, as they all stand deeper
    have admitted : ∀ container ∈ rest, (memory.remember first).Admits container := by
      intro container within place other standing known
      rcases known?_after memory first place with same | ⟨elsewhere, -, -⟩
      · exact admits container (List.mem_cons_of_mem _ within) place other standing (same.symm.trans known)
      · have shallow := deeper container within
        simp [Container.depth, standing, elsewhere] at shallow
    intro container within
    rcases List.mem_cons.mp within with rfl | within
    · exact (lasting.holds_remember (admits _ List.mem_cons_self)).mono (grows_rememberAll _ rest)
    · exact ih after (fun other within => described other (List.mem_cons_of_mem _ within)) admitted descends container within

theorem agreesBelow_remember (memory : Memory) (container : Container) {depth : Nat} (shallow : container.depth ≤ depth) :
    memory.AgreesBelow depth (memory.remember container) := by
  intro place deeper
  rcases known?_after memory container place with same | ⟨standing, -, -⟩
  · exact same.symm
  · simp only [Container.depth, standing, Option.map_some, Option.getD_some] at shallow
    exact absurd deeper (Nat.not_lt.mpr shallow)

theorem AgreesBelow.refl (depth : Nat) (memory : Memory) : memory.AgreesBelow depth memory :=
  fun _ _ => rfl

theorem AgreesBelow.symm {depth : Nat} (agrees : memory.AgreesBelow depth later) : later.AgreesBelow depth memory :=
  fun place deeper => (agrees place deeper).symm

theorem AgreesBelow.trans {depth : Nat} {latest : Memory} (first : memory.AgreesBelow depth later)
    (last : later.AgreesBelow depth latest) : memory.AgreesBelow depth latest :=
  fun place deeper => (first place deeper).trans (last place deeper)

theorem AgreesBelow.mono {depth deeper : Nat} (agrees : memory.AgreesBelow depth later) (below : depth ≤ deeper) :
    memory.AgreesBelow deeper later :=
  fun place under => agrees place (Nat.lt_of_le_of_lt below under)

theorem agreesBelow_rememberAll (memory : Memory) {containers : List Container} {depth : Nat}
    (shallow : ∀ container ∈ containers, container.depth ≤ depth) :
    memory.AgreesBelow depth (memory.rememberAll containers) :=
  List.foldlRecOn containers remember (.refl depth memory) fun later agrees container within =>
    agrees.trans (agreesBelow_remember later container (shallow container within))

end Memory

namespace Context

/-- What is opened at a place was opened from a schema there, and is the only thing known there. -/
theorem opens_of_opener (lasting : memory.Lasting) {path : String} {reference : Reference Schema}
    (opened : ({ registry, memory } : Context).opener (some place) path reference = .ok container) :
    (∃ schema, container.Opens schema place) ∧ memory.Admits container := by
  cases known : memory.known? place with
  | some other =>
    simp only [opener, Option.bind_some, known, Except.ok.injEq] at opened
    subst opened
    obtain ⟨schema, opens⟩ := lasting.opens place other known
    refine ⟨⟨schema, opens⟩, ?_⟩
    intro there latter standing found
    cases standing.symm.trans opens.place
    exact Option.some.inj (found.symm.trans known)
  | none =>
    have unknown : (some place).bind memory.known? = none := known
    rw [opener_unknown unknown, bind_eq_ok] at opened
    obtain ⟨target, -, made⟩ := opened
    have opens := Container.opens_of_ofSchema made
    refine ⟨⟨target, opens⟩, ?_⟩
    intro there latter standing found
    cases standing.symm.trans opens.place
    cases found.symm.trans known

private theorem not_object_of_scalar {type : Scalar} (content : property.field.content = .scalar type) :
    property.field.valueType ≠ .object := by
  simp [Field.valueType, content, Content.valueType]

private theorem object_of_nested {reference : Reference Schema} (content : property.field.content = .nested reference) :
    property.field.valueType = .object := by
  simp [Field.valueType, content, Content.valueType]

/-- What is nested in a property was opened from a schema at the place of the property, if it holds objects. -/
theorem opens_of_nested (lasting : memory.Lasting) {children : Option Container} (standing : property.place = some place)
    (opened : ({ registry, memory } : Context).nested property = .ok children) :
    (children.isSome = true ↔ property.field.valueType = .object) ∧
      ∀ inner, children = some inner → (∃ schema, inner.Opens schema place) ∧ memory.Admits inner := by
  simp only [nested, Amendments.isEmpty_unchanged, ite_true, Property.nested, standing] at opened
  cases content : property.field.content with
  | scalar type =>
    rw [content] at opened
    cases opened
    refine ⟨by simp [not_object_of_scalar content], ?_⟩
    intro inner impossible
    cases impossible
  | nested reference =>
    simp only [content] at opened
    cases found : ({ registry, memory } : Context).opener (some place) property.nestedPath reference with
    | error fault =>
      rw [found] at opened
      cases opened
    | ok inner =>
      rw [found] at opened
      cases opened
      refine ⟨by simp [object_of_nested content], ?_⟩
      intro other same
      cases same
      exact opens_of_opener lasting found

/-- What was opened in a property before is met there again, whichever classes are registered by then. -/
theorem nested_again {former : Memory} {present : Registry} {children : Option Container} (lasting : former.Lasting)
    (standing : property.place = some place)
    (opened : ({ registry, memory := former } : Context).nested property = .ok children)
    (holds : ∀ inner ∈ children, memory.Holds inner) :
    ({ registry := present, memory } : Context).nested property = .ok children := by
  obtain ⟨present?, inside⟩ := opens_of_nested lasting standing opened
  simp only [nested, Amendments.isEmpty_unchanged, ite_true, Property.nested, standing]
  cases content : property.field.content with
  | scalar type =>
    have nothing : children.isSome ≠ true := fun present => not_object_of_scalar content (present?.mp present)
    simp [Option.not_isSome_iff_eq_none.mp nothing]
  | nested reference =>
    obtain ⟨inner, rfl⟩ := Option.isSome_iff_exists.mp (present?.mpr (object_of_nested content))
    obtain ⟨⟨schema, opens⟩, -⟩ := inside inner rfl
    have known := holds inner rfl place opens.place
    simp [opener, known, Except.map]

/-- What is nested in a property depends on nothing but what is met at its place. -/
theorem nested_of_known (standing : property.place = some place) (same : memory.known? place = later.known? place) :
    ({ registry, memory } : Context).nested property = ({ registry, memory := later } : Context).nested property := by
  simp only [nested, Amendments.isEmpty_unchanged, ite_true, Property.nested, standing, opener, Option.bind_some, same]

theorem nested_of_agree {depth : Nat} (agrees : memory.AgreesBelow depth later) (standing : property.place = some place)
    (deeper : depth < place.depth) :
    ({ registry, memory } : Context).nested property = ({ registry, memory := later } : Context).nested property :=
  nested_of_known standing (agrees place deeper)

theorem root_eq_ok :
    ({ registry, memory } : Context).root schema = .ok container ↔
      schema.hidden.contains Operation.rootContainer = false ∧ schema.isMixin = false ∧
        ({ registry, memory } : Context).opener (some { ground := .schema schema.id }) "" (.schema schema) = .ok container := by
  simp only [root, Amendments.isEmpty_unchanged, ite_true, Container.root]
  cases schema.hidden.contains Operation.rootContainer <;> cases schema.isMixin <;> simp [bind, Except.bind]

/-- The root container of a schema stays what it is. -/
theorem root_again {former : Memory} {present : Registry} (lasting : former.Lasting)
    (opened : ({ registry, memory := former } : Context).root schema = .ok container) (holds : memory.Holds container) :
    ({ registry := present, memory } : Context).root schema = .ok container := by
  obtain ⟨shown, noMixin, opened⟩ := root_eq_ok.mp opened
  obtain ⟨⟨origin, opens⟩, -⟩ := opens_of_opener lasting opened
  have known := holds _ opens.place
  exact root_eq_ok.mpr ⟨shown, noMixin, by simp [opener, known]⟩

end Context
end RecordAddress
