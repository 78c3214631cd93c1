import RecordAddress.Proofs.References

/-! Which properties have the same dotted path. Names have no dots in them, so that a path tells all names that were gone
through. It does not tell a property of a subtype from one that is nested in a property with the name of the subtype. -/

namespace RecordAddress
variable {known : Schema → Prop} {registry : Registry} {memory former : Memory} {schema : Schema} {container : Container}
  {place : Place} {target : Property} {children : Option Container} {tokens others names : List String}
  {start last : Option Container}

/-- Names without dots are told by the path that they make up, as long as there are any. -/
theorem names_of_path {names others : List String} (dotless : ∀ name ∈ names, '.' ∉ name.toList)
    (otherDotless : ∀ name ∈ others, '.' ∉ name.toList) (same : ".".intercalate names = ".".intercalate others) :
    names = others ∨ (names = [] ∧ others = [""]) ∨ (names = [""] ∧ others = []) := by
  have parts {names : List String} (dotless : ∀ name ∈ names, '.' ∉ name.toList) (some : names ≠ []) :
      (".".intercalate names).toList.splitOn '.' = names.map String.toList := by
    rw [String.toList_intercalate]
    exact List.splitOn_intercalate '.' (by simpa using dotless) (by simpa using some)
  have nothing : ([] : List Char).splitOn '.' = [""].map String.toList := rfl
  have injective : Function.Injective (List.map String.toList) := List.map_injective_iff.mpr fun _ _ => String.toList_inj.mp
  have split := congrArg (fun path => path.toList.splitOn '.') same
  by_cases none : names = [] <;> by_cases otherNone : others = []
  · exact .inl (none.trans otherNone.symm)
  · subst none
    simp only [parts otherDotless otherNone, String.intercalate_nil] at split
    exact .inr (.inl ⟨rfl, (injective (nothing.symm.trans split)).symm⟩)
  · subst otherNone
    simp only [parts dotless none, String.intercalate_nil] at split
    exact .inr (.inr ⟨injective (split.trans nothing), rfl⟩)
  · simp only [parts dotless none, parts otherDotless otherNone] at split
    exact .inl (injective split)

namespace Memory

/-- The container that is open below a property. -/
def below? (memory : Memory) (target : Property) : Option Container :=
  if target.field.valueType = .object then target.place.bind memory.known? else none

/-- What was nested in a property is open below it as long as it is held. -/
theorem below?_of_nested (lasting : former.Lasting) (standing : target.place = some place)
    (nested : ({ registry, memory := former } : Context).nested target = .ok children)
    (holds : ∀ inner ∈ children, memory.Holds inner) : memory.below? target = children := by
  obtain ⟨present, inside⟩ := Context.opens_of_nested lasting standing nested
  unfold below?
  cases children with
  | none => rw [if_neg (by simpa using present)]
  | some inner =>
    obtain ⟨⟨_, opens⟩, -⟩ := inside inner rfl
    rw [if_pos (present.mp rfl), standing]
    exact holds inner rfl place opens.place

theorem known_of_below? {inner : Container} (below : memory.below? target = some inner) :
    ∃ place, memory.known? place = some inner := by
  unfold below? at below
  split at below
  · obtain ⟨place, -, found⟩ := Option.bind_eq_some_iff.mp below
    exact ⟨place, found⟩
  · cases below

/-- What the tokens of properties lead to from an open container, and the names that are gone through. A property of a
subtype counts for the name of the subtype and its own. -/
inductive Leads (memory : Memory) : Option Container → List String → List String → Option Container → Prop
  | stop {last : Option Container} : Leads memory last [] [] last
  | own {container : Container} {name : String} {target : Property} {tokens names : List String} {last : Option Container} :
      container.property? name = some target → Leads memory (memory.below? target) tokens names last →
      Leads memory (some container) (name :: tokens) (name :: names) last
  | ofSubtype {container specific : Container} {subtype name : String} {listed target : Property} {tokens names : List String}
      {last : Option Container} : container.subtype? subtype = some listed → memory.below? listed = some specific →
      specific.property? name = some target → Leads memory (memory.below? target) tokens names last →
      Leads memory (some container) ((subtype ++ ":" ++ name) :: tokens) (subtype :: name :: names) last

theorem Leads.no_tokens (leads : memory.Leads start tokens [] last) : tokens = [] := by
  cases leads
  rfl

theorem Leads.one_token {name : String} (leads : memory.Leads start tokens [name] last) : tokens = [name] := by
  cases leads with
  | own _ further => rw [further.no_tokens]

theorem Leads.append {further rest : List String} {lowest : Option Container} (leads : memory.Leads start tokens names last)
    (more : memory.Leads last further rest lowest) : memory.Leads start (tokens ++ further) (names ++ rest) lowest := by
  induction leads with
  | stop => exact more
  | own found _ ih => exact .own found (ih more)
  | ofSubtype listed inside found _ ih => exact .ofSubtype listed inside found (ih more)

theorem Leads.ends_known (leads : memory.Leads start tokens names last)
    (isKnown : ∀ outer ∈ start, ∃ place, memory.known? place = some outer) :
    ∀ inner ∈ last, ∃ place, memory.known? place = some inner := by
  induction leads with
  | stop => exact isKnown
  | own _ _ ih | ofSubtype _ _ _ _ ih => exact ih fun _ below => known_of_below? below

/-- Tokens that lead the same way, until one of them names a property of a subtype and the other a property that has the
name of the subtype and goes on below it. -/
def Parts (memory : Memory) (start : Option Container) (tokens others : List String) : Prop :=
  ∃ front names container subtype name rest beyond listed target, memory.Leads start front names (some container) ∧
    tokens = front ++ (subtype ++ ":" ++ name) :: rest ∧ others = front ++ subtype :: beyond ∧
    container.subtype? subtype = some listed ∧ container.property? subtype = some target ∧
    target.field.valueType = .object

theorem Parts.below {front rest : List String} (leads : memory.Leads start front rest last)
    (parts : memory.Parts last tokens others) : memory.Parts start (front ++ tokens) (front ++ others) := by
  obtain ⟨further, names, container, subtype, name, rest, beyond, listed, target, more, rfl, rfl, both⟩ := parts
  exact ⟨front ++ further, _, container, subtype, name, rest, beyond, listed, target, leads.append more,
    (List.append_assoc ..).symm, (List.append_assoc ..).symm, both⟩

/-- A name that is gone through below a property is one of its objects. -/
private theorem parts_here {subtype name : String} {listed : Property} {rest beyond further : List String}
    (variant : container.subtype? subtype = some listed) (found : container.property? subtype = some target)
    (goesOn : memory.Leads (memory.below? target) beyond (name :: further) last) :
    memory.Parts (some container) ((subtype ++ ":" ++ name) :: rest) (subtype :: beyond) := by
  refine ⟨[], [], container, subtype, name, rest, beyond, listed, target, .stop, rfl, rfl, variant, found, ?_⟩
  by_contra scalar
  rw [below?, if_neg scalar] at goesOn
  cases goesOn

/-- The same names are gone through by the same tokens, unless these part at a subtype. -/
theorem Leads.unique_or_parts {end_ : Option Container} (leads : memory.Leads start tokens names last)
    (otherLeads : memory.Leads start others names end_) :
    tokens = others ∨ memory.Parts start tokens others ∨ memory.Parts start others tokens := by
  induction leads generalizing others with
  | stop =>
    cases otherLeads
    exact .inl rfl
  | own found goesOn ih =>
    cases otherLeads with
    | own foundToo further =>
      cases found.symm.trans foundToo
      have step : memory.Leads _ [_] [_] _ := .own found .stop
      rcases ih further with rfl | parts | parts
      · exact .inl rfl
      · exact .inr (.inl (parts.below step))
      · exact .inr (.inr (parts.below step))
    | ofSubtype listed _ _ _ => exact .inr (.inr (parts_here listed found goesOn))
  | ofSubtype listed inside found goesOn ih =>
    cases otherLeads with
    | own foundToo further => exact .inr (.inl (parts_here listed foundToo further))
    | ofSubtype listedToo insideToo foundToo further =>
      cases listed.symm.trans listedToo
      cases inside.symm.trans insideToo
      cases found.symm.trans foundToo
      have step : memory.Leads _ [_] [_, _] _ := .ofSubtype listed inside found .stop
      rcases ih further with rfl | parts | parts
      · exact .inl rfl
      · exact .inr (.inl (parts.below step))
      · exact .inr (.inr (parts.below step))

end Memory

/-- Known schemas are well named, wherever containers of them are met. -/
theorem Container.Rooted.wellNamed (rooted : container.Rooted memory) (closed : Schema.Closed known)
    (keeps : memory.Keeps known) (opens : container.Opens schema place) : schema.WellNamed := by
  obtain ⟨_, there, _, _, _, remembered, _⟩ := rooted
  obtain ⟨origin, _, isKnown, originOpens⟩ := keeps there container remembered
  obtain rfl : origin = schema := originOpens.taken.symm.trans opens.taken
  exact closed.wellNamed origin isKnown opens.noMixin

namespace Pointer
variable {pointer other parent child : Pointer} {token : String}

def propertyToken? : Pointer → Option String
  | root _ | element .. => none
  | property _ token _ _ => some token

/-- The tokens of the properties on the way to the pointer. -/
def propertyTokens (pointer : Pointer) : List String :=
  pointer.chain.filterMap propertyToken?

@[simp] theorem propertyTokens_root (container : Container) : (root container).propertyTokens = [] := rfl

@[simp] theorem propertyTokens_element (parent : Pointer) (token : String) (index : ElementIndex) :
    (element parent token index).propertyTokens = parent.propertyTokens := by
  simp [propertyTokens, chain, propertyToken?]

@[simp] theorem propertyTokens_property (parent : Pointer) (token : String) (target : Property) (children : Option Container) :
    (property parent token target children).propertyTokens = parent.propertyTokens ++ [token] := by
  simp [propertyTokens, chain, propertyToken?]

/-- The names that a token stands for, which are two if it tells a property of a subtype. -/
def namesOf (token : String) : List String :=
  match subtypeAndName? token with
  | some (subtype, name) => [subtype, name]
  | none => [token]

/-- The names that make up the path of the pointer. -/
def propertyNames (pointer : Pointer) : List String :=
  pointer.propertyTokens.flatMap namesOf

@[simp] theorem propertyNames_root (container : Container) : (root container).propertyNames = [] := rfl

@[simp] theorem propertyNames_element (parent : Pointer) (token : String) (index : ElementIndex) :
    (element parent token index).propertyNames = parent.propertyNames := by
  simp [propertyNames]

@[simp] theorem propertyNames_property (parent : Pointer) (token : String) (target : Property) (children : Option Container) :
    (property parent token target children).propertyNames = parent.propertyNames ++ namesOf token := by
  simp [propertyNames]

theorem namesOf_ne_nil (token : String) : namesOf token ≠ [] := by
  unfold namesOf
  split <;> simp

/-- The names of a pointer are gone through by the tokens of its properties, and make up its path. -/
structure Led (memory : Memory) (container : Container) (pointer : Pointer) : Prop where
  leads : memory.Leads (some container) pointer.propertyTokens pointer.propertyNames pointer.children?
  path : pointer.path = ".".intercalate pointer.propertyNames
  nameless : pointer.propertyNames = [] ↔ pointer.isRoot = true
  dotless : ∀ name ∈ pointer.propertyNames, '.' ∉ name.toList

theorem Led.element (led : parent.Led memory container) (lower : parent.isRoot = false) (index : ElementIndex) :
    (element parent token index).Led memory container where
  leads := by
    rw [propertyTokens_element, propertyNames_element]
    exact led.leads
  path := by
    rw [propertyNames_element]
    exact led.path
  nameless := by
    rw [propertyNames_element, led.nameless, lower]
    rfl
  dotless := by
    rw [propertyNames_element]
    exact led.dotless

/-- The path of what is below a pointer goes on from that of the pointer. -/
theorem Led.join (led : parent.Led memory container) (token : String) :
    ".".intercalate (parent.propertyNames ++ namesOf token) = parent.stem ++ ".".intercalate (namesOf token) := by
  unfold stem
  cases isRoot : parent.isRoot with
  | true =>
    rw [led.nameless.mpr isRoot]
    simp
  | false =>
    have before : parent.propertyNames ≠ [] := fun nothing => by simp [led.nameless.mp nothing] at isRoot
    rw [String.intercalate_append_of_ne_nil before (namesOf_ne_nil token), ← led.path]
    rfl

theorem Led.property (led : parent.Led memory container) (leads : memory.Leads parent.children? [token] (namesOf token) children)
    (path : target.path = parent.stem ++ ".".intercalate (namesOf token)) (dotless : ∀ name ∈ namesOf token, '.' ∉ name.toList) :
    (Pointer.property parent token target children).Led memory container where
  leads := by
    rw [propertyTokens_property, propertyNames_property]
    exact led.leads.append leads
  path := by
    rw [propertyNames_property, led.join]
    exact path
  nameless := by simp [namesOf_ne_nil, isRoot]
  dotless := by
    rw [propertyNames_property]
    exact List.forall_mem_append.mpr ⟨led.dotless, dotless⟩

/-- Pointers of the same path lead through the same properties, unless they part at a subtype or one of them is the root
one. -/
theorem Led.unique_or_parts (led : pointer.Led memory container) (otherLed : other.Led memory container)
    (same : pointer.path = other.path) :
    pointer.propertyTokens = other.propertyTokens ∨
      (pointer.propertyTokens = [] ∧ other.propertyTokens = [""]) ∨ (pointer.propertyTokens = [""] ∧ other.propertyTokens = []) ∨
      memory.Parts (some container) pointer.propertyTokens other.propertyTokens ∨
      memory.Parts (some container) other.propertyTokens pointer.propertyTokens := by
  rw [led.path, otherLed.path] at same
  have leads := led.leads
  have otherLeads := otherLed.leads
  rcases names_of_path led.dotless otherLed.dotless same with names | ⟨names, others⟩ | ⟨names, others⟩ <;> rw [names] at leads
  · rcases leads.unique_or_parts otherLeads with tokens | parts | parts
    · exact .inl tokens
    · exact .inr (.inr (.inr (.inl parts)))
    · exact .inr (.inr (.inr (.inr parts)))
  · rw [others] at otherLeads
    exact .inr (.inl ⟨leads.no_tokens, otherLeads.one_token⟩)
  · rw [others] at otherLeads
    exact .inr (.inr (.inl ⟨leads.one_token, otherLeads.no_tokens⟩))

variable (closed : Schema.Closed known) (keeps : memory.Keeps known) (charted : memory.Charted)
include closed keeps charted

/-- What a token stands for is led to from the container that it is looked up in. -/
theorem Yields.leads {outer : Container} {opened : List Container} (rooted : outer.Rooted memory) (lasting : former.Lasting)
    (yields : Yields registry former outer token target children opened) (holds : ∀ inner ∈ opened, memory.Holds inner) :
    memory.Leads (some outer) [token] (namesOf token) children ∧
    target.path = outer.path ++ ".".intercalate (namesOf token) ∧ ∀ name ∈ namesOf token, '.' ∉ name.toList := by
  obtain ⟨schema, place, opens⟩ := rooted.described
  have wellNamed := rooted.wellNamed closed keeps opens
  -- a property of the container itself, whose name has no colon in it
  have ofOwn (found : outer.property? token = some target) (below : memory.below? target = children) :
      memory.Leads (some outer) [token] (namesOf token) children ∧
      target.path = outer.path ++ ".".intercalate (namesOf token) ∧ ∀ name ∈ namesOf token, '.' ∉ name.toList := by
    have allowed := allowed_of_property? opens wellNamed found
    have plain : namesOf token = [token] := by rw [namesOf, no_subtypeAndName? (MemberName.no_colon_if_named allowed)]
    have named : outer.at? (.property token) = some target := found
    rw [plain, String.intercalate_singleton]
    exact ⟨.own found (below ▸ .stop), (opens.path_of_at? named).1,
      List.forall_mem_singleton.mpr (MemberName.excluded_if_named (by decide) allowed)⟩
  cases yields with
  | typeProperty told found =>
    have below : memory.below? target = none := by
      rw [Memory.below?, type_property_is_text opens told found, if_neg nofun]
    exact ofOwn found below
  | own told plain found nested =>
    have named : outer.at? (.property token) = some target := found
    exact ofOwn found (Memory.below?_of_nested lasting (opens.place_of_at? named) nested (by simpa using holds))
  | @ofSubtype subtype name property _ specific _ told parts listed inside found nested =>
    have above : outer.at? (.subtype subtype) = some property := listed
    have named : specific.at? (.property name) = some target := found
    obtain ⟨held, further⟩ := List.forall_mem_cons.mp holds
    obtain ⟨specificRooted, specificPath⟩ := rooted.below charted above lasting inside held
    obtain ⟨_, _, specificOpens⟩ := specificRooted.described
    have between := Memory.below?_of_nested lasting (opens.place_of_at? above) inside (by simpa using held)
    have below := Memory.below?_of_nested lasting (specificOpens.place_of_at? named) nested (by simpa using further)
    have both : namesOf token = [subtype, name] := by rw [namesOf, parts]
    obtain ⟨rfl, -⟩ := subtypeAndName?_eq_some.mp parts
    rw [both]
    refine ⟨.ofSubtype listed between found (below ▸ .stop), ?_, ?_⟩
    · rw [(specificOpens.path_of_at? named).1, specificPath]
      simp [Segment.name, String.append_assoc]
    · obtain ⟨-, reference, within, -⟩ := opens.listed_of_subtype? listed
      have specificNamed := specificRooted.wellNamed closed keeps specificOpens
      have allowed : MemberName.allowed subtype = true := wellNamed.subtype_allowed _ within
      have dotless {name : String} := @MemberName.excluded_if_named name '.' (by decide)
      simpa using ⟨dotless (.inr allowed), dotless (allowed_of_property? specificOpens specificNamed found)⟩

theorem Firm.led (firm : Firm container memory pointer) (isRoot : container.RootOf schema memory) :
    pointer.Led memory container := by
  induction firm with
  | root => exact ⟨.stop, by rw [propertyNames_root, String.intercalate_nil]; rfl, by simp [Pointer.isRoot], nofun⟩
  | @step _ _ _ parent child token opened above sturdy lasting step holds ih =>
    cases step with
    | position awaited =>
      obtain ⟨_, _, _, _, rfl, -⟩ := @collection_of_next parent .array awaited
      exact ih.element rfl _
    | entry awaited =>
      obtain ⟨_, _, _, _, rfl, -⟩ := @collection_of_next parent .map awaited
      exact ih.element rfl _
    | @property outer target children _ awaited yields =>
      have has := (sturdy.at_hand awaited).1
      obtain ⟨rooted, stem⟩ := (above.trailed isRoot charted).children outer has
      obtain ⟨leads, path, dotless⟩ := yields.leads closed keeps charted rooted lasting holds
      exact ih.property (has ▸ leads) (stem ▸ path) dotless

end Pointer

/-- A subtype of the schema has the name of a field for objects. -/
def Schema.Doubles (schema : Schema) (name : String) : Prop :=
  (∃ reference, (name, reference) ∈ schema.subtypes) ∧ ∃ field ∈ schema.fields, field.name = name ∧ field.valueType = .object

theorem Container.Opens.doubles {name : String} {listed : Property} (opens : container.Opens schema place)
    (variant : container.subtype? name = some listed) (found : container.property? name = some target)
    (object : target.field.valueType = .object) : schema.Doubles name := by
  constructor
  · obtain ⟨-, reference, within, -⟩ := opens.listed_of_subtype? variant
    exact ⟨reference, within⟩
  · rcases opens.field_of_property? found with ⟨declared, named⟩ | ⟨-, -, telling⟩
    · exact ⟨target.field, declared, named, object⟩
    · rw [telling] at object
      cases object

namespace Session
open Pointer

/-- Tokens of different properties that may come to the same path: none at all and an empty one, or such that one of them names
a property of a subtype and the other goes through a property with the name of the subtype. -/
inductive Confused (classes : List Class) : List String → List String → Prop
  | nameless : Confused classes [] [""]
  | namesakes {cls : Class} {subtype : String} (front : List String) (name : String) (rest beyond : List String) :
      cls ∈ classes → cls.outline.Doubles subtype →
      Confused classes (front ++ (subtype ++ ":" ++ name) :: rest) (front ++ subtype :: beyond)

theorem confused_of_parts {classes : List Class} (keeps : memory.Keeps (Class.Outlines classes))
    (isRoot : container.RootOf schema memory) (charted : memory.Charted) (parts : memory.Parts (some container) tokens others) :
    Confused classes tokens others := by
  obtain ⟨front, _, between, subtype, name, rest, beyond, listed, target, leads, rfl, rfl, variant, found, object⟩ := parts
  have rootKnown : ∀ outer ∈ some container, ∃ place, memory.known? place = some outer := by
    rintro outer ⟨rfl⟩
    obtain ⟨⟨_, place, _, _, _, remembered, _⟩, -⟩ := isRoot.rooted charted
    exact ⟨place, remembered⟩
  obtain ⟨there, remembered⟩ := leads.ends_known rootKnown between rfl
  obtain ⟨origin, _, outline, opens⟩ := keeps there between remembered
  have doubles : origin.Doubles subtype := opens.doubles variant found object
  rcases outline with rfl | ⟨cls, made, rfl⟩
  · obtain ⟨⟨_, within⟩, -⟩ := doubles
    cases within
  · exact .namesakes front name rest beyond made doubles

/-- The path of a pointer is made of the names of its properties. It tells the properties, whatever classes were made and
whatever was opened of them, unless one of the classes has a subtype and a field for objects of the same name, or a property
has no name at all. -/
theorem paths_tell_properties_unless_namesakes (rootLabel : String) (sources : List ClassSource)
    (arises : memory.ArisesFrom (Class.Outlines (({ rootLabel } : Session).made sources)))
    (isRoot : container.RootOf schema memory) {pointer other : Pointer} (held : Held container memory pointer)
    (otherHeld : Held container memory other) (differ : pointer.propertyTokens ≠ other.propertyTokens) :
    pointer.path = ".".intercalate pointer.propertyNames ∧ other.path = ".".intercalate other.propertyNames ∧
    (pointer.path ≠ other.path ∨
      Confused (({ rootLabel } : Session).made sources) pointer.propertyTokens other.propertyTokens ∨
      Confused (({ rootLabel } : Session).made sources) other.propertyTokens pointer.propertyTokens) := by
  have closed := outlines_closed rootLabel sources
  have charted := arises.arises.charted
  have keeps := arises.keeps closed
  obtain ⟨_, _, opens⟩ := isRoot.described
  have led := (held.firm opens).led closed keeps charted isRoot
  have otherLed := (otherHeld.firm opens).led closed keeps charted isRoot
  refine ⟨led.path, otherLed.path, ?_⟩
  by_cases same : pointer.path = other.path
  case neg => exact .inl same
  have confused {tokens others : List String} (parts : memory.Parts (some container) tokens others) :
      Confused (({ rootLabel } : Session).made sources) tokens others :=
    confused_of_parts keeps isRoot charted parts
  rcases led.unique_or_parts otherLed same with tokens | ⟨none, unnamed⟩ | ⟨unnamed, none⟩ | parts | parts
  · exact absurd tokens differ
  · rw [none, unnamed]
    exact .inr (.inl .nameless)
  · rw [none, unnamed]
    exact .inr (.inr .nameless)
  · exact .inr (.inl (confused parts))
  · exact .inr (.inr (confused parts))

/-- Events that tell how they were opened in two ways, as events of a kind and in a property of the name. -/
def openings (name : String) : List ClassSource := [
  { name := "Opened", label := "Opened", bases := [Schema.base.name], isMixin := false,
    fields := [("byWho", .scalar "string" "" "")], options := none },
  { name := "Event", label := "Event", bases := [Schema.base.name], isMixin := false,
    fields := [("opening", .nested (.label "Opened") name "")],
    options := some { typeProperty := some "kind", subtypes := some [("OPENED", .label "Opened")] } }]

private def readsBoth (sources : List ClassSource) (first second : String) (test : Pointer → Pointer → Bool) : Bool :=
  let registry := (({ rootLabel := "Event" } : Session).defining sources).context.registry
  (({ rootLabel := "Event" } : Session).made sources)[1]?.any fun cls => cls.schema?.any fun schema =>
    (({ registry } : Context).root schema).toOption.any fun container =>
      let memory := Memory.remember {} container
      let reading := parse { registry, memory } container true (.text first)
      let further := parse { registry, memory := memory.rememberAll reading.opened } container true (.text second)
      reading.outcome.toOption.any fun pointer => further.outcome.toOption.any fun other => test pointer other

private theorem of_readsBoth {sources : List ClassSource} {first second : String} {test : Pointer → Pointer → Bool}
    (holds : readsBoth sources first second test = true) :
    let made := ({ rootLabel := "Event" } : Session).made sources
    ∃ (cls : Class) (schema : Schema) (container : Container) (memory : Memory) (pointer other : Pointer),
      cls ∈ made ∧ cls.schema? = some schema ∧ memory.ArisesFrom (Class.Outlines made) ∧ container.RootOf schema memory ∧
      Held container memory pointer ∧ Held container memory other ∧ test pointer other = true := by
  intro made
  simp only [readsBoth, Option.any_eq_true, toOption_eq_some] at holds
  obtain ⟨cls, listed, schema, offered, container, opened, pointer, parsed, other, otherParsed, passes⟩ := holds
  have known := registry_knows_outlines "Event" sources
  have isMade : cls ∈ made := List.mem_of_getElem? listed
  have outline : Class.Outlines made schema := .inr ⟨cls, isMade, (Class.schema_of_schema? offered).1.symm⟩
  obtain ⟨lasting, isRoot⟩ := Container.RootOf.opened opened
  let memory := Memory.remember {} container
  let registry := (({ rootLabel := "Event" } : Session).defining sources).context.registry
  let reading := parse { registry, memory } container true (.text first)
  let later := memory.rememberAll reading.opened
  let further := parse { registry, memory := later } container true (.text second)
  have arises : memory.ArisesFrom (Class.Outlines made) := .root .start known outline opened
  have arisesLater : later.ArisesFrom (Class.Outlines made) := arises.parse true (.text first) known isRoot
  have rootLater : container.RootOf schema later := isRoot.mono (Memory.grows_rememberAll memory reading.opened)
  have grows : later.Grows (later.rememberAll further.opened) := Memory.grows_rememberAll later further.opened
  exact ⟨cls, schema, container, _, pointer, other, isMade, offered, arisesLater.parse true (.text second) known rootLater,
    rootLater.mono grows, (held_of_parse lasting parsed).mono grows,
    held_of_parse arisesLater.arises.charted.toLasting otherParsed, passes⟩

/-- Who opened an event has a path for each of the ways to tell it. -/
theorem opening_is_told_by_two_paths :
    let made := ({ rootLabel := "Event" } : Session).made (openings "opening")
    ∃ (cls : Class) (schema : Schema) (container : Container) (memory : Memory) (pointer other : Pointer),
      cls ∈ made ∧ cls.schema? = some schema ∧ memory.ArisesFrom (Class.Outlines made) ∧ container.RootOf schema memory ∧
      Held container memory pointer ∧ Held container memory other ∧ pointer.propertyTokens = ["OPENED:byWho"] ∧
      other.propertyTokens = ["opening", "byWho"] ∧ pointer.path ≠ other.path := by
  intro made
  have computed : readsBoth (openings "opening") "/OPENED:byWho" "/opening/byWho" (fun pointer other =>
      pointer.propertyTokens = ["OPENED:byWho"] ∧ other.propertyTokens = ["opening", "byWho"]) = true := by
    decide +kernel
  have apart : (made.all fun cls => cls.outline.subtypes.all fun subtype => cls.outline.fields.all fun field =>
      field.name ≠ subtype.1) = true := by
    decide +kernel
  obtain ⟨cls, schema, container, memory, pointer, other, isMade, offered, arises, isRoot, held, otherHeld, tokens⟩ :=
    of_readsBoth computed
  obtain ⟨tokens, otherTokens⟩ := of_decide_eq_true tokens
  have unconfused {tokens others : List String} (some : tokens ≠ []) : ¬ Confused made tokens others := by
    rintro (_ | ⟨_, _, _, _, within, ⟨⟨reference, listed⟩, field, declared, named, -⟩⟩)
    · exact some rfl
    · simp only [List.all_eq_true, decide_eq_true_eq] at apart
      exact apart _ within _ listed field declared named
  refine ⟨cls, schema, container, memory, pointer, other, isMade, offered, arises, isRoot, held, otherHeld, tokens, otherTokens, ?_⟩
  have differ : pointer.propertyTokens ≠ other.propertyTokens := by rw [tokens, otherTokens]; decide
  obtain ⟨-, -, paths | confused | confused⟩ :=
    paths_tell_properties_unless_namesakes "Event" (openings "opening") arises isRoot held otherHeld differ
  · exact paths
  · exact absurd confused (unconfused (by simp [tokens]))
  · exact absurd confused (unconfused (by simp [otherTokens]))

/-- Who opened an event has one path for both ways, if the property has the name of the kind. -/
theorem namesakes_share_a_path :
    let made := ({ rootLabel := "Event" } : Session).made (openings "OPENED")
    ∃ (cls : Class) (schema : Schema) (container : Container) (memory : Memory) (pointer other : Pointer),
      cls ∈ made ∧ cls.schema? = some schema ∧ memory.ArisesFrom (Class.Outlines made) ∧ container.RootOf schema memory ∧
      Held container memory pointer ∧ Held container memory other ∧ pointer.isElement = false ∧ other.isElement = false ∧
      pointer.propertyTokens = ["OPENED:byWho"] ∧ other.propertyTokens = ["OPENED", "byWho"] ∧
      pointer.path = "OPENED.byWho" ∧ other.path = "OPENED.byWho" := by
  intro made
  have computed : readsBoth (openings "OPENED") "/OPENED:byWho" "/OPENED/byWho" (fun pointer other =>
      pointer.isElement = false ∧ other.isElement = false ∧ pointer.propertyTokens = ["OPENED:byWho"] ∧
        other.propertyTokens = ["OPENED", "byWho"] ∧ pointer.path = "OPENED.byWho" ∧ other.path = "OPENED.byWho") = true := by
    decide +kernel
  obtain ⟨cls, schema, container, memory, pointer, other, isMade, offered, arises, isRoot, held, otherHeld, told⟩ :=
    of_readsBoth computed
  exact ⟨cls, schema, container, memory, pointer, other, isMade, offered, arises, isRoot, held, otherHeld, of_decide_eq_true told⟩

end Session
end RecordAddress
