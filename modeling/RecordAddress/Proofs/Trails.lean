import RecordAddress.Proofs.Charts

/-! The trails of pointers, which are the tokens of their properties. The path of a pointer is made from the path of a
container that was opened further up, and comes to the trail all the same. -/

namespace RecordAddress
variable {registry : Registry} {memory former : Memory} {schema : Schema} {container outer inner : Container}
  {place : Place} {segment : Segment} {target : Property} {token : String}

namespace Memory

/-- What is remembered after calls that open containers: root ones, what is nested in the properties and subtypes of
others, and what texts and tokens need. What is opened from other than schemas may come in between. -/
inductive Arises : Memory → Prop
  | start : Arises {}
  | root {registry : Registry} {memory : Memory} {schema : Schema} {container : Container} : Arises memory →
      ({ registry, memory } : Context).root schema = .ok container → Arises (memory.remember container)
  | nested {registry : Registry} {memory : Memory} {place : Place} {outer inner : Container} {segment : Segment}
      {property : Property} : Arises memory → memory.known? place = some outer → outer.at? segment = some property →
      ({ registry, memory } : Context).nested property = .ok (some inner) → Arises (memory.remember inner)
  | parse {memory : Memory} {schema : Schema} {container : Container} (registry : Registry) (dashAllowed : Bool)
      (given : Value) : Arises memory → container.RootOf schema memory →
      Arises (memory.rememberAll (Pointer.parse { registry, memory } container dashAllowed given).opened)
  | child {memory : Memory} {schema : Schema} {container : Container} {parent : Pointer} (registry : Registry)
      (dashAllowed : Bool) (token : String) : Arises memory → container.RootOf schema memory →
      Pointer.Held container memory parent →
      Arises (memory.rememberAll (parent.child { registry, memory } dashAllowed token).opened)
  | elsewhere {memory : Memory} {container : Container} : Arises memory → container.Described →
      (∀ place id again, container.place = some place → place.ground ≠ .schema id again) →
      Arises (memory.remember container)

end Memory

/-- A container below a schema that is met at its place. -/
def Container.Rooted (memory : Memory) (container : Container) : Prop :=
  ∃ schema place id again, container.Opens schema place ∧ memory.known? place = some container ∧
    place.ground = .schema id again

theorem Container.Rooted.described (rooted : container.Rooted memory) : container.Described := by
  obtain ⟨schema, place, _, _, opens, _⟩ := rooted
  exact ⟨schema, place, opens⟩

theorem Container.Rooted.charted (rooted : container.Rooted memory) (charted : memory.Charted) : container.Charted := by
  obtain ⟨_, _, _, _, _, known, _⟩ := rooted
  exact charted.known known

/-- What is nested in a container has the path of the container, with the name in between. -/
theorem Container.Rooted.below (rooted : outer.Rooted memory) (charted : memory.Charted)
    (found : outer.at? segment = some target) (lasting : former.Lasting)
    (opened : ({ registry, memory := former } : Context).nested target = .ok (some inner)) (holds : memory.Holds inner) :
    inner.Rooted memory ∧ inner.path = outer.path ++ segment.name ++ "." := by
  obtain ⟨_, place, id, again, opens, known, ground⟩ := rooted
  obtain ⟨⟨innerSchema, innerOpens⟩, -⟩ := (Context.opens_of_nested lasting (opens.place_of_at? found) opened).2 inner rfl
  have innerKnown := holds _ innerOpens.place
  refine ⟨⟨innerSchema, _, id, again, innerOpens, innerKnown, ground⟩, ?_⟩
  rw [charted.charts _ inner innerKnown id again ground, charted.charts place outer known id again ground]
  rfl

theorem Container.RootOf.rooted (isRoot : container.RootOf schema memory) (charted : memory.Charted) :
    container.Rooted memory ∧ container.path = "" := by
  obtain ⟨_, former, lasting, opened, remembered⟩ := isRoot
  obtain ⟨-, -, found⟩ := Context.root_eq_ok.mp opened
  obtain ⟨⟨origin, opens⟩, admits⟩ := Context.opens_of_opener lasting found
  have known := ((lasting.holds_remember admits).mono remembered) _ opens.place
  exact ⟨⟨origin, _, schema.id, false, opens, known, rfl⟩, charted.charts _ container known schema.id false rfl⟩

namespace Pointer
variable {pointer parent child : Pointer}

/-- What a pointer adds to the dotted path. A property of a subtype is told by both names, and elements add nothing. -/
def trailPart? : Pointer → Option String
  | root _ | element .. => none
  | property parent token _ _ =>
    match subtypeAndName? token with
    | some (subtype, name) => if parent.namesSubtype token then some (subtype ++ "." ++ name) else some token
    | none => some token

def trail (pointer : Pointer) : List String :=
  pointer.chain.filterMap trailPart?

/-- The path in front of the names below a pointer. -/
def stem (pointer : Pointer) : String :=
  if pointer.isRoot then "" else pointer.path ++ "."

/-- The path of a pointer is its trail, and what is below it goes on from there. -/
structure Trailed (memory : Memory) (pointer : Pointer) : Prop where
  path : pointer.path = ".".intercalate pointer.trail
  lower : pointer.isRoot = false → pointer.trail ≠ []
  children : ∀ inner ∈ pointer.children?, inner.Rooted memory ∧ inner.path = pointer.stem

theorem trail_root (container : Container) : (root container).trail = [] := rfl

theorem trail_element (parent : Pointer) (token : String) (index : ElementIndex) :
    (element parent token index).trail = parent.trail := by
  simp [trail, chain, trailPart?]

theorem trail_property {part : String} {target : Property} {children : Option Container}
    (adds : (property parent token target children).trailPart? = some part) :
    (property parent token target children).trail = parent.trail ++ [part] := by
  simp [trail, chain, adds]

theorem Trailed.snoc (trailed : parent.Trailed memory) (part : String) :
    ".".intercalate (parent.trail ++ [part]) = parent.stem ++ part := by
  cases parent with
  | root container => simp [trail_root, stem, isRoot]
  | property | element =>
    rw [String.intercalate_append_of_ne_nil (trailed.lower rfl) (List.cons_ne_nil part []), ← trailed.path,
      String.intercalate_singleton]
    rfl

theorem namesSubtype_of_parts {subtype name : String} (has : parent.children? = some outer)
    (parts : subtypeAndName? token = some (subtype, name)) :
    parent.namesSubtype token = (outer.subtype? subtype).isSome := by
  simp [namesSubtype, parts, has]

theorem trailPart_of_plain (has : parent.children? = some outer) (children : Option Container)
    (plain : ∀ subtype name, subtypeAndName? token = some (subtype, name) → outer.subtype? subtype = none) :
    (property parent token target children).trailPart? = some token := by
  simp only [trailPart?]
  split
  next subtype name parts => rw [namesSubtype_of_parts has parts, plain subtype name parts]; rfl
  next => rfl

/-- The type property is no property of a subtype, whatever its name. -/
theorem no_parts_of_type (opens : outer.Opens schema place) (told : tellsType {} outer token = .ok true) :
    subtypeAndName? token = none := by
  obtain ⟨polymorphic, rfl⟩ : schema.isPolymorphic = true ∧ schema.typeProperty = token := by
    simpa [tellsType_unchanged opens] using told
  exact no_subtypeAndName? (no_colon_in_type opens polymorphic)

/-- What a token stands for in a container has the path of the container and what the token adds to it. -/
theorem path_of_yields {children : Option Container} {opened : List Container} (has : parent.children? = some outer)
    (rooted : outer.Rooted memory) (charted : memory.Charted) (lasting : former.Lasting)
    (yields : Yields registry former outer token target children opened) (holds : ∀ inner ∈ opened, memory.Holds inner) :
    ∃ part, (property parent token target children).trailPart? = some part ∧ target.path = outer.path ++ part ∧
      ∀ inner ∈ children, inner.Rooted memory ∧ inner.path = outer.path ++ part ++ "." := by
  obtain ⟨schema, place, opens⟩ := rooted.described
  cases yields with
  | typeProperty told found =>
    have named : outer.at? (.property token) = some target := found
    refine ⟨token, trailPart_of_plain has none fun subtype name parts => ?_, (opens.path_of_at? named).1, nofun⟩
    cases (no_parts_of_type opens told).symm.trans parts
  | own told plain found nested =>
    have named : outer.at? (.property token) = some target := found
    refine ⟨token, trailPart_of_plain has children plain, (opens.path_of_at? named).1, ?_⟩
    rintro inner ⟨rfl⟩
    exact rooted.below charted named lasting nested (holds inner (by simp))
  | @ofSubtype subtype name property _ specific _ told parts listed inside found nested =>
    have below : outer.at? (.subtype subtype) = some property := listed
    have named : specific.at? (.property name) = some target := found
    obtain ⟨specificRooted, specificPath⟩ := rooted.below charted below lasting inside (holds specific List.mem_cons_self)
    obtain ⟨_, _, specificOpens⟩ := specificRooted.described
    have whole : outer.path ++ (subtype ++ "." ++ name) = specific.path ++ name := by
      rw [specificPath]
      simp only [Segment.name, String.append_assoc]
    refine ⟨subtype ++ "." ++ name, ?_, ?_, ?_⟩
    · have names : parent.namesSubtype token = true := by rw [namesSubtype_of_parts has parts, listed]; rfl
      simp only [trailPart?, parts, names, ite_true]
    · rw [whole]
      exact (specificOpens.path_of_at? named).1
    · rintro inner ⟨rfl⟩
      rw [whole]
      exact specificRooted.below charted named lasting nested (holds inner (by simp))

theorem Trailed.element (trailed : parent.Trailed memory) (lower : parent.isRoot = false) (token : String)
    (index : ElementIndex) : (element parent token index).Trailed memory where
  path := by
    rw [trail_element]
    exact trailed.path
  lower _ := by
    rw [trail_element]
    exact trailed.lower lower
  children inner within := by
    have same : (Pointer.element parent token index).stem = parent.stem := by
      rw [stem, stem, lower]
      rfl
    rw [same]
    exact trailed.children inner within

/-- What one token adds to the path is what it adds to the trail. -/
theorem Trailed.step {dashAllowed : Bool} {opened : List Container} (trailed : parent.Trailed memory) (sturdy : parent.Sturdy)
    (charted : memory.Charted) (lasting : former.Lasting)
    (step : Step registry former dashAllowed parent token child opened) (holds : ∀ inner ∈ opened, memory.Holds inner) :
    child.Trailed memory := by
  cases step with
  | position awaited =>
    obtain ⟨_, _, _, _, rfl, -⟩ := @collection_of_next parent .array awaited
    exact trailed.element rfl token _
  | entry awaited =>
    obtain ⟨_, _, _, _, rfl, -⟩ := @collection_of_next parent .map awaited
    exact trailed.element rfl token _
  | @property outer target children _ awaited yields =>
    have has := (sturdy.at_hand awaited).1
    obtain ⟨rooted, stem⟩ := trailed.children outer has
    obtain ⟨part, adds, path, below⟩ := path_of_yields has rooted charted lasting yields holds
    rw [stem, ← trailed.snoc part, ← trail_property adds] at path
    refine ⟨path, fun _ => by simp [trail_property adds], fun inner within => ?_⟩
    obtain ⟨innerRooted, innerPath⟩ := below inner within
    rw [stem, ← trailed.snoc part, ← trail_property adds, ← path] at innerPath
    exact ⟨innerRooted, innerPath⟩

theorem Firm.trailed (firm : Firm container memory pointer) (isRoot : container.RootOf schema memory)
    (charted : memory.Charted) : pointer.Trailed memory := by
  induction firm with
  | root =>
    refine ⟨by rw [trail_root, String.intercalate_nil]; rfl, nofun, ?_⟩
    rintro inner ⟨rfl⟩
    exact isRoot.rooted charted
  | step _ sturdy lasting step holds ih => exact ih.step sturdy charted lasting step holds

end Pointer

theorem Memory.Arises.charted (arises : memory.Arises) : memory.Charted := by
  induction arises with
  | start => exact charted_of_empty
  | root _ opened ih => exact ih.remember (Context.charted_of_root ih opened)
  | nested _ known found opened ih => exact ih.remember (Context.charted_nests ih _ _ _ _ (ih.known known) found opened)
  | parse registry dashAllowed given _ isRoot ih =>
    exact Pointer.charted_after_parse ih ((isRoot.rooted ih).1.charted ih)
  | child registry dashAllowed token _ isRoot held ih =>
    obtain ⟨_, _, opens⟩ := isRoot.described
    have trailed := (held.firm opens).trailed isRoot ih
    exact Pointer.charted_after_child ih ⟨held.sturdy opens, fun inner within => (trailed.children inner within).1.charted ih⟩
  | elsewhere _ described apart ih =>
    obtain ⟨schema, place, opens⟩ := described
    exact ih.remember ⟨schema, place, opens, fun id again ground => absurd ground (apart place id again opens.place)⟩

namespace Pointer

/-- The path of a pointer is made of the tokens of the properties on its way, with dots between them, where a property of a
subtype counts for the name of the subtype and its own. The path of the container below a pointer is that of the pointer
and a dot, and that of the root one is empty. -/
theorem paths_are_trails (arises : memory.Arises) (isRoot : container.RootOf schema memory)
    (held : Held container memory pointer) :
    pointer.path = ".".intercalate pointer.trail ∧
    ∀ inner, pointer.children? = some inner → inner.path = if pointer.isRoot then "" else pointer.path ++ "." := by
  obtain ⟨_, _, opens⟩ := isRoot.described
  have trailed := (held.firm opens).trailed isRoot arises.charted
  exact ⟨trailed.path, fun inner within => (trailed.children inner within).2⟩

/-- The parent of an order is an order again, and its events are told apart by their kinds. -/
theorem opener_of_parent_has_its_path :
    let former := Memory.remember {} Orders.container
    let events := parse { registry := Orders.registry, memory := former } Orders.container true (.text "/parent/events/0")
    let memory := former.rememberAll events.opened
    ∃ event opener inner, events.outcome = .ok event ∧
      let openers := event.child { registry := Orders.registry, memory } true "OPENED:byWho"
      let latest := memory.rememberAll openers.opened
      openers.outcome = .ok opener ∧ latest.Arises ∧ Orders.container.RootOf Orders.order latest ∧
      Held Orders.container latest event ∧ Held Orders.container latest opener ∧
      opener.trail = ["parent", "events", "OPENED.byWho"] ∧ opener.path = "parent.events.OPENED.byWho" ∧
      event.children? = some inner ∧ event.trail = ["parent", "events"] ∧ inner.path = "parent.events." := by
  intro former events memory
  obtain ⟨event, opener, inner, reached, made, below, notRoot, eventTrail, openerTrail⟩ : ∃ event opener inner,
      events.outcome = .ok event ∧
      (event.child { registry := Orders.registry, memory } true "OPENED:byWho").outcome = .ok opener ∧
      event.children? = some inner ∧ event.isRoot = false ∧ event.trail = ["parent", "events"] ∧
      opener.trail = ["parent", "events", "OPENED.byWho"] := ⟨_, _, _, rfl, rfl, rfl, rfl, rfl, rfl⟩
  have root : ({ registry := Orders.registry } : Context).root Orders.order = .ok Orders.container := rfl
  obtain ⟨lasting, isRoot⟩ := Container.RootOf.opened root
  have first : former.Arises := .root .start root
  have second : memory.Arises := .parse Orders.registry true _ first isRoot
  have rootLater := isRoot.mono (Memory.grows_rememberAll former events.opened)
  have eventHeld : Held Orders.container memory event := held_of_parse lasting reached
  have third := Memory.Arises.child Orders.registry true "OPENED:byWho" second rootLater eventHeld
  have grows := Memory.grows_rememberAll memory (event.child { registry := Orders.registry, memory } true "OPENED:byWho").opened
  have rootLatest := rootLater.mono grows
  have openerHeld := held_of_child second.charted.toLasting eventHeld made
  obtain ⟨eventPath, children⟩ := paths_are_trails third rootLatest (eventHeld.mono grows)
  have openerPath := (paths_are_trails third rootLatest openerHeld).1
  have innerPath := children inner below
  rw [notRoot, eventPath, eventTrail] at innerPath
  rw [openerTrail] at openerPath
  exact ⟨event, opener, inner, reached, made, third, rootLatest, eventHeld.mono grows, openerHeld, openerTrail, openerPath,
    below, eventTrail, innerPath⟩

end Pointer
end RecordAddress
