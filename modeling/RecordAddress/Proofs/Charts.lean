import RecordAddress.Proofs.Resolution

/-! Charted containers, whose paths are told by the places where they stand. The root container of a schema is charted, and
so is what is nested in a property or a subtype of a charted one, also where it was opened before. -/

namespace RecordAddress
variable {registry : Registry} {memory later : Memory} {schema : Schema} {container outer inner specific : Container}
  {place : Place} {segment : Segment} {property target : Property} {token : String}

def Segment.name : Segment → String
  | .property name | .subtype name => name

namespace Place

/-- The dotted path of what stands below the properties and subtypes of the place. -/
def path (place : Place) : String :=
  place.trail.foldr (fun segment above => above ++ segment.name ++ ".") ""

theorem path_below (place : Place) (segment : Segment) : (place.below segment).path = place.path ++ segment.name ++ "." := rfl

/-- A place below a schema tells the path of the container that stands there. Others need not. -/
def Charts (place : Place) (path : String) : Prop :=
  ∀ id again, place.ground = .schema id again → path = place.path

theorem Charts.below (charts : place.Charts container.path) (segment : Segment) :
    (place.below segment).Charts (container.path ++ segment.name ++ ".") := by
  intro id again ground
  rw [path_below, charts id again ground]

end Place

namespace Container

/-- A container that was opened from a schema, at the path of its place. -/
def Charted (container : Container) : Prop :=
  ∃ schema place, container.Opens schema place ∧ place.Charts container.path

theorem Charted.described (charted : container.Charted) : container.Described := by
  obtain ⟨schema, place, opens, -⟩ := charted
  exact ⟨schema, place, opens⟩

theorem Opens.name_of_at? (opens : container.Opens schema place) (found : container.at? segment = some property) :
    property.name = segment.name := by
  cases segment with
  | property name => exact Pointer.name_of_property? opens found
  | subtype name =>
    obtain ⟨reference, -, rfl⟩ := Option.map_eq_some_iff.mp found
    rfl

theorem Opens.path_of_at? (opens : container.Opens schema place) (found : container.at? segment = some property) :
    property.path = container.path ++ segment.name ∧ property.nestedPath = container.path ++ segment.name ++ "." := by
  have plain : property.containerPath = container.path ∧ property.givenPath = none := by
    cases segment <;> obtain ⟨_, -, rfl⟩ := Option.map_eq_some_iff.mp found <;> exact ⟨rfl, rfl⟩
  have path : property.path = container.path ++ segment.name := by rw [Property.path, plain.1, opens.name_of_at? found]
  exact ⟨path, by rw [Property.nestedPath, plain.2, Option.getD_none, path]⟩

end Container

namespace Memory

/-- A memory that lasts, of charted containers. -/
structure Charted (memory : Memory) : Prop extends Lasting memory where
  charts : ∀ place container, memory.known? place = some container → place.Charts container.path

theorem Charted.known (charted : memory.Charted) (known : memory.known? place = some container) :
    container.Charted := by
  obtain ⟨schema, opens⟩ := charted.opens place container known
  exact ⟨schema, place, opens, charted.charts place container known⟩

theorem charted_of_empty : Memory.Charted {} where
  toLasting := lasting_of_empty
  charts _ _ known := by cases known

theorem Charted.remember (charted : memory.Charted) (fine : container.Charted) : (memory.remember container).Charted where
  toLasting := charted.toLasting.remember fine.described
  charts place other known := by
    rcases known?_after memory container place with same | ⟨standing, -, new⟩
    · exact charted.charts place other (same.symm.trans known)
    · obtain ⟨_, there, opens, charts⟩ := fine
      cases new.symm.trans known
      cases standing.symm.trans opens.place
      exact charts

theorem Charted.rememberAll {containers : List Container} (charted : memory.Charted)
    (fine : ∀ container ∈ containers, container.Charted) : (memory.rememberAll containers).Charted :=
  List.foldlRecOn containers Memory.remember charted fun _ charted container within =>
    charted.remember (fine container within)

end Memory

namespace Context

theorem charted_of_opener {path : String} {reference : Reference Schema} (charted : memory.Charted) (charts : place.Charts path)
    (opened : ({ registry, memory } : Context).opener (some place) path reference = .ok container) : container.Charted := by
  cases known : memory.known? place with
  | some other =>
    simp only [opener, Option.bind_some, known, Except.ok.injEq] at opened
    subst opened
    exact charted.known known
  | none =>
    have unknown : (some place).bind memory.known? = none := known
    rw [opener_unknown unknown, bind_eq_ok] at opened
    obtain ⟨target, -, made⟩ := opened
    have opens := Container.opens_of_ofSchema made
    obtain ⟨-, -, rfl⟩ := Container.ofSchema_eq_ok made
    exact ⟨target, place, opens, charts⟩

theorem charted_of_root (charted : memory.Charted) (opened : ({ registry, memory } : Context).root schema = .ok container) :
    container.Charted :=
  charted_of_opener charted (fun _ _ _ => rfl) (root_eq_ok.mp opened).2.2

/-- What is nested in the properties and the subtypes of fine containers is fine. -/
def Nests (fine : Container → Prop) (context : Context) : Prop :=
  ∀ outer segment property inner, fine outer → outer.at? segment = some property →
    context.nested property = .ok (some inner) → fine inner

theorem charted_nests (charted : memory.Charted) : Nests Container.Charted { registry, memory } := by
  rintro outer segment property inner ⟨_, place, opens, charts⟩ found opened
  obtain ⟨reference, -, outcome⟩ := opener_of_nested opened
  rw [opens.place_of_at? found, (opens.path_of_at? found).2] at outcome
  exact charted_of_opener charted (charts.below segment) outcome

end Context

namespace Pointer
variable {pointer parent child : Pointer} {children : Option Container} {opened : List Container} {whole given : Value}
  {dashAllowed : Bool}

section
variable {fine : Container → Prop} (nests : Context.Nests fine { registry, memory })
include nests

theorem fine_of_lookUp (outer : fine container)
    (looked : (lookUp { registry, memory } container token).outcome = .ok (some target))
    (nested : ({ registry, memory } : Context).nested target = .ok (some inner)) : fine inner := by
  rcases found_of_lookUp looked with found | ⟨subtype, name, property, specific, -, listed, inside, found⟩
  · exact nests container (.property token) target inner outer found nested
  · have above : fine specific := nests container (.subtype subtype) property specific outer listed inside
    exact nests specific (.property name) target inner above found nested

/-- What is opened for a token below a pointer is as fine as the container of the pointer. -/
theorem extend_opens (sturdy : parent.Sturdy) (above : ∀ inner ∈ parent.children?, fine inner) :
    (extend { registry, memory } whole dashAllowed parent token).Guarded fine := by
  refine Pointer.extend_guarded sturdy.next_opened ?_ ?_
  · intro container subtype property inner awaited listed nested
    have outer := above container (sturdy.at_hand awaited).1
    exact nests container (.subtype subtype) property inner outer listed nested
  · intro container target inner awaited names
    have outer := above container (sturdy.at_hand awaited).1
    cases names with
    | found _ looked same nested =>
      cases same
      exact fine_of_lookUp nests outer looked nested

theorem children_of_extend (sturdy : parent.Sturdy) (above : ∀ inner ∈ parent.children?, fine inner)
    (extended : (extend { registry, memory } whole dashAllowed parent token).outcome = .ok child) :
    ∀ inner ∈ child.children?, fine inner := by
  rcases extend_eq_ok.mp extended with ⟨_, -, -, rfl⟩ | ⟨-, rfl⟩ | ⟨container, target, children, awaited, names, rfl⟩
  · exact above
  · exact above
  · have outer := above container (sturdy.at_hand awaited).1
    rintro inner ⟨rfl⟩
    cases names with
    | found _ looked same nested =>
      cases same
      exact fine_of_lookUp nests outer looked nested

/-- What is opened when a text is parsed is as fine as the container that it is parsed below. -/
theorem parse_opens (described : container.Described) (lasting : memory.Lasting) (outer : fine container) :
    ∀ inner ∈ (parse { registry, memory } container dashAllowed given).opened, fine inner := by
  obtain ⟨_, _, opens⟩ := described
  refine (parse_guarded (fun pointer => pointer.Sturdy ∧ ∀ inner ∈ pointer.children?, fine inner) ?_ ?_ ?_).opened
  · refine ⟨.root opens, ?_⟩
    rintro inner ⟨rfl⟩
    exact outer
  · rintro parent token ⟨sturdy, above⟩
    exact extend_opens nests sturdy above
  · rintro parent token child ⟨sturdy, above⟩ extended
    exact ⟨(step_of_extend extended).sturdy lasting sturdy, children_of_extend nests sturdy above extended⟩

end

/-- A pointer whose container is charted, if there are objects. -/
structure Charted (pointer : Pointer) : Prop where
  sturdy : pointer.Sturdy
  children : ∀ inner ∈ pointer.children?, inner.Charted

theorem charted_after_parse (charted : memory.Charted) (fine : container.Charted) :
    (memory.rememberAll (parse { registry, memory } container dashAllowed given).opened).Charted :=
  charted.rememberAll (parse_opens (Context.charted_nests charted) fine.described charted.toLasting fine)

theorem charted_after_child (charted : memory.Charted) (fine : parent.Charted) :
    (memory.rememberAll (parent.child { registry, memory } dashAllowed token).opened).Charted :=
  charted.rememberAll
    (extend_opens (Context.charted_nests charted) fine.sturdy fine.children).opened

end Pointer
end RecordAddress
