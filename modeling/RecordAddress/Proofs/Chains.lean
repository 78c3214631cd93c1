import RecordAddress.Proofs.Guarded
import RecordAddress.Proofs.Orders
import RecordAddress.Proofs.Steps

/-! Chains of pointers, from the root down. A pointer is obtained by parsing a text or by extending another one,
and each way of extending keeps what the pointers of a chain tell of themselves. -/

namespace RecordAddress
variable {registry : Registry} {memory : Memory} {container : Container} {schema : Schema} {place : Place}
  {token : String}

namespace Pointer
variable {parent pointer child : Pointer} {whole : Value} {dashAllowed : Bool}

private theorem inside_opened {target : Property} {children : Option Container}
    (present : children.isSome = true ↔ target.field.valueType = .object) :
    Next.inside (({} : Amendments).holdsObjects target) children ≠ .unopened := by
  cases children with
  | none =>
    have other : target.field.valueType ≠ .object := by simpa using present
    simp [Next.inside, other]
  | some inner => cases holds : ({} : Amendments).holdsObjects target <;> simp [Next.inside]

/-- What comes after a pointer never waits for a container that is not at hand. -/
theorem Sturdy.next_opened (sturdy : pointer.Sturdy) : pointer.next {} ≠ .unopened := by
  cases sturdy with
  | root => simp [next]
  | property _ _ present =>
    simp only [next]
    split
    · simp
    · simp
    · exact inside_opened present
  | element collection =>
    cases collection with
    | property _ _ present =>
      simp only [next]
      split
      · simp
      · exact inside_opened present

/-- What is looked up stands deeper than all that was opened for that. -/
theorem standing_of_lookUp (lasting : memory.Lasting) (opens : container.Opens schema place) {target : Property}
    (looked : (lookUp { registry, memory } container token).outcome = .ok (some target)) :
    ∃ depth, container.depth ≤ depth ∧
      (∀ inner ∈ (lookUp { registry, memory } container token).opened, inner.depth ≤ depth) ∧
      ∃ below, target.place = some below ∧ depth < below.depth := by
  rcases plain_or_specific container token with plain | ⟨subtype, name, property, parts, listed⟩
  · rw [lookUp_of_plain plain] at looked ⊢
    have found : container.at? (.property token) = some target := Except.ok.inj looked
    refine ⟨container.depth, Nat.le_refl _, nofun, _, opens.place_of_at? found, ?_⟩
    simp [opens.depth_eq, Place.below]
  · obtain ⟨specific, nested, named, opened⟩ := (lookUp_of_subtype parts listed).mp (by rw [← looked])
    obtain ⟨⟨_, specificOpens⟩, -⟩ := specific_opens lasting opens listed nested
    have found : specific.at? (.property name) = some target := named.symm
    refine ⟨specific.depth, Nat.le_of_lt (opens.shallower specificOpens), ?_, _, specificOpens.place_of_at? found, ?_⟩
    · intro inner within
      rw [opened] at within
      obtain rfl := List.mem_singleton.mp within
      exact Nat.le_refl _
    · simp [specificOpens.depth_eq, Place.below]

theorem Sturdy.extend_guarded (lasting : memory.Lasting) (sturdy : parent.Sturdy) :
    (extend { registry, memory } whole dashAllowed parent token).Guarded Container.Described := by
  refine Pointer.extend_guarded sturdy.next_opened ?_ ?_
  · intro container subtype property inner awaited listed nested
    obtain ⟨-, _, _, opens⟩ := sturdy.at_hand awaited
    obtain ⟨⟨_, innerOpens⟩, -⟩ := specific_opens lasting opens listed nested
    exact ⟨_, _, innerOpens⟩
  · intro container target inner awaited names
    obtain ⟨-, _, _, opens⟩ := sturdy.at_hand awaited
    cases names with
    | found _ looked same nested =>
      cases same
      obtain ⟨_, -, -, below, standing, -⟩ := standing_of_lookUp lasting opens looked
      obtain ⟨⟨_, innerOpens⟩, -⟩ := (Context.opens_of_nested lasting standing nested).2 inner rfl
      exact ⟨_, _, innerOpens⟩

/-- Whatever a text is parsed to, no container is missed, and only what schemas describe is opened. -/
theorem parse_opens_described (lasting : memory.Lasting) (described : container.Described) (given : Value) :
    (parse { registry, memory } container dashAllowed given).Guarded Container.Described := by
  obtain ⟨_, _, opens⟩ := described
  have start : (Pointer.root container).Sturdy := .root opens
  refine parse_guarded Sturdy start (fun _ _ sturdy => sturdy.extend_guarded lasting) ?_
  intro parent token child sturdy extended
  exact (step_of_extend extended).sturdy lasting sturdy

/-- A memory that lasts still does once what is opened by parsing is remembered. -/
theorem lasting_after_parse (lasting : memory.Lasting) (described : container.Described) (given : Value) :
    (memory.rememberAll (parse { registry, memory } container dashAllowed given).opened).Lasting :=
  lasting.rememberAll (parse_opens_described lasting described given).opened

/-- The pointers that were obtained below a container, by parsing texts and by extending what came of it. Classes
may have been registered and containers opened in between, and all that was opened is remembered now. -/
inductive Held (container : Container) (memory : Memory) : Pointer → Prop
  | parsed {registry : Registry} {former : Memory} {dashAllowed : Bool} {given : Value} {pointer : Pointer} :
      former.Lasting → (parse { registry, memory := former } container dashAllowed given).outcome = .ok pointer →
      (former.rememberAll (parse { registry, memory := former } container dashAllowed given).opened).Grows memory →
      Held container memory pointer
  | child {registry : Registry} {former : Memory} {dashAllowed : Bool} {token : String} {parent pointer : Pointer} :
      former.Lasting → Held container memory parent →
      (Pointer.child { registry, memory := former } dashAllowed parent token).outcome = .ok pointer →
      (former.rememberAll (Pointer.child { registry, memory := former } dashAllowed parent token).opened).Grows memory →
      Held container memory pointer

theorem Held.mono {later : Memory} (held : Held container memory pointer) (grows : memory.Grows later) :
    Held container later pointer := by
  induction held with
  | parsed lasting parsed remembered => exact .parsed lasting parsed (remembered.trans grows)
  | child lasting _ made remembered ih => exact .child lasting ih made (remembered.trans grows)

theorem held_of_parse {given : Value} (lasting : memory.Lasting)
    (parsed : (parse { registry, memory } container dashAllowed given).outcome = .ok pointer) :
    Held container (memory.rememberAll (parse { registry, memory } container dashAllowed given).opened) pointer :=
  .parsed lasting parsed (.refl _)

theorem held_of_child (lasting : memory.Lasting) (held : Held container memory parent)
    (made : (Pointer.child { registry, memory } dashAllowed parent token).outcome = .ok pointer) :
    Held container (memory.rememberAll (Pointer.child { registry, memory } dashAllowed parent token).opened) pointer :=
  .child lasting (held.mono (Memory.grows_rememberAll memory _)) made (.refl _)

theorem tokens_of_parse {given : Value}
    (parsed : (parse { registry, memory } container dashAllowed given).outcome = .ok pointer) :
    ∃ tokens : List String, tokens.foldlM (extend { registry, memory } given dashAllowed) (.root container) =
      ⟨(parse { registry, memory } container dashAllowed given).opened, .ok pointer⟩ := by
  obtain ⟨text, tokens, rfl, pieces⟩ := split_of_parse parsed
  refine ⟨tokens, ?_⟩
  rw [← parse_of_split pieces, ← parsed]

theorem Held.sturdy (opens : container.Opens schema place) (held : Held container memory pointer) : pointer.Sturdy := by
  induction held with
  | parsed lasting parsed =>
    obtain ⟨_, extended⟩ := tokens_of_parse parsed
    exact (extendAll_sturdy lasting (.root opens) extended).1
  | child lasting _ made _ ih => exact (step_of_extend made).sturdy lasting ih

/-- What a pointer tells of itself and of the pointer above it. -/
structure Linked (pointer : Pointer) : Prop where
  root : pointer.isRoot = true ↔ pointer.property? = none
  children : pointer.children?.isSome = true ↔
    pointer.isRoot = true ∨ ∃ target, pointer.property? = some target ∧ target.field.valueType = .object
  /-- Elements stand right below the property of their collection and share what it has. -/
  element : pointer.isElement = true →
    pointer.parent.isRoot = false ∧ pointer.parent.isElement = false ∧
      (∃ target kind, pointer.parent.property? = some target ∧ target.field.collection? = some kind) ∧
      pointer.property? = pointer.parent.property? ∧ pointer.path = pointer.parent.path ∧
      pointer.children? = pointer.parent.children?
  single : pointer.isElement = false → pointer.index? = none
  position : ∀ target, pointer.isElement = true → pointer.property? = some target →
    target.field.collection? = some .array → ∃ index : ArrayIndex, pointer.index? = some (.ofArray index)
  key : ∀ target, pointer.isElement = true → pointer.property? = some target →
    target.field.collection? = some .map →
      ∃ token, pointer.tokens = pointer.parent.tokens ++ [token] ∧ pointer.index? = some (.key token)

private theorem linked_of_single (single : pointer.isElement = false) (noIndex : pointer.index? = none)
    (root : pointer.isRoot = true ↔ pointer.property? = none)
    (children : pointer.children?.isSome = true ↔
      pointer.isRoot = true ∨ ∃ target, pointer.property? = some target ∧ target.field.valueType = .object) :
    pointer.Linked where
  root := root
  children := children
  element impossible := by simp [single] at impossible
  single _ := noIndex
  position _ impossible := by simp [single] at impossible
  key _ impossible := by simp [single] at impossible

theorem Sturdy.linked (sturdy : pointer.Sturdy) : pointer.Linked := by
  cases sturdy with
  | root => exact linked_of_single rfl rfl (by simp [isRoot, property?]) (by simp [isRoot, children?])
  | property _ _ present =>
    exact linked_of_single rfl rfl (by simp [isRoot, property?]) (by simpa [isRoot, property?, children?] using present)
  | @element above inside token target children index collection kind keyed =>
    cases collection with
    | property _ _ present =>
      refine ⟨by simp [isRoot, property?], by simpa [isRoot, property?, children?] using present, ?_, ?_, ?_, ?_⟩
      · intro _
        exact ⟨rfl, rfl, ⟨target, index.kind, rfl, kind⟩, rfl, rfl, rfl⟩
      · intro impossible
        cases impossible
      · rintro _ - ⟨rfl⟩ array
        rw [kind] at array
        cases index with
        | position index => exact ⟨.position index, rfl⟩
        | afterLast => exact ⟨.afterLast, rfl⟩
        | key => cases array
      · rintro _ - ⟨rfl⟩ map
        rw [kind] at map
        cases index with
        | position | afterLast => cases map
        | key key =>
          obtain rfl := keyed key rfl
          exact ⟨key, rfl, rfl⟩

theorem Sturdy.of_chain (sturdy : pointer.Sturdy) : ∀ link ∈ pointer.chain, link.Sturdy := by
  induction sturdy with
  | root opens =>
    intro link within
    obtain rfl := List.mem_singleton.mp within
    exact .root opens
  | property above noDash present opens ih =>
    intro link within
    rcases List.mem_append.mp within with within | within
    · exact ih link within
    · obtain rfl := List.mem_singleton.mp within
      exact .property above noDash present opens
  | element collection kind keyed ih =>
    intro link within
    rcases List.mem_append.mp within with within | within
    · exact ih link within
    · obtain rfl := List.mem_singleton.mp within
      exact .element collection kind keyed

private theorem chain_ends (pointer : Pointer) : pointer.chain = pointer.chain.dropLast ++ [pointer] := by
  cases pointer <;> simp [chain]

theorem Sturdy.dash_last (sturdy : pointer.Sturdy) : ∀ link ∈ pointer.chain.dropLast, link.isDash = false := by
  have above : ∀ parent : Pointer, parent.isDash = false → (∀ link ∈ parent.chain.dropLast, link.isDash = false) →
      ∀ link ∈ parent.chain, link.isDash = false := by
    intro parent noDash higher link within
    rw [chain_ends parent] at within
    rcases List.mem_append.mp within with within | within
    · exact higher link within
    · obtain rfl := List.mem_singleton.mp within
      exact noDash
  induction sturdy with
  | root => exact nofun
  | property _ noDash _ _ ih => simpa [chain] using above _ noDash ih
  | element collection _ _ ih => simpa [chain] using above _ rfl ih

theorem Reached.chain_starts (reached : Reached container pointer) :
    ∃ rest, pointer.chain = .root container :: rest ∧ ∀ link ∈ rest, link.isRoot = false := by
  induction reached with
  | root => exact ⟨[], rfl, nofun⟩
  | @extend _ _ _ _ parent child _ _ extended ih =>
    obtain ⟨rest, starts, lower⟩ := ih
    obtain ⟨rfl, notRoot, -⟩ := parent_of_extend extended
    refine ⟨rest ++ [child], ?_, List.forall_mem_append.mpr ⟨lower, by simpa using notRoot⟩⟩
    cases child with
    | root => cases notRoot
    | property | element => rw [chain, ← List.cons_append, ← starts]; rfl

theorem Held.reached (held : Held container memory pointer) : Reached container pointer := by
  induction held with
  | parsed _ parsed => exact reached_of_parse parsed
  | child _ _ made _ ih => exact reached_of_child ih made

/-- The chain of a pointer starts with the root pointer of its container, the only one without a property. Wherever
there are objects, and nowhere else, their container is at hand, so that no token is ever resolved without it.
Elements stand right below the property of their collection, under a position, a dash or the token itself, and
nothing stands below a dash. -/
theorem chains_are_linked {former : Memory} (lasting : former.Lasting)
    (opened : ({ registry, memory := former } : Context).root schema = .ok container)
    (held : Held container memory pointer) :
    (∃ rest, pointer.chain = .root container :: rest ∧ ∀ link ∈ rest, link.isRoot = false) ∧
    (∀ link ∈ pointer.chain, link.Linked) ∧
    (∀ link ∈ pointer.chain.dropLast, link.isDash = false) ∧
    (∀ (present : Registry) (later : Memory) (dashAllowed : Bool), later.Lasting →
      (∀ link ∈ pointer.chain, ∀ token,
        (link.child { registry := present, memory := later } dashAllowed token).Guarded Container.Described) ∧
      (∀ given,
        (parse { registry := present, memory := later } container dashAllowed given).Guarded Container.Described)) := by
  obtain ⟨-, -, opened⟩ := Context.root_eq_ok.mp opened
  obtain ⟨⟨_, opens⟩, -⟩ := Context.opens_of_opener lasting opened
  have sturdy := held.sturdy opens
  refine ⟨held.reached.chain_starts, ?_, sturdy.dash_last, ?_⟩
  · intro link within
    exact (sturdy.of_chain link within).linked
  · intro present later dashAllowed laterLasting
    exact ⟨fun link within token => (sturdy.of_chain link within).extend_guarded laterLasting,
      parse_opens_described laterLasting ⟨_, _, opens⟩⟩

theorem opener_is_linked :
    let opening := parse { registry := Orders.registry } Orders.container true (.text "/events/0/OPENED:byWho")
    Memory.Lasting {} ∧ ({ registry := Orders.registry } : Context).root Orders.order = .ok Orders.container ∧
    ∃ pointer, opening.outcome = .ok pointer ∧
      Held Orders.container (Memory.rememberAll {} opening.opened) pointer ∧ ∀ link ∈ pointer.chain, link.Linked := by
  intro opening
  obtain ⟨pointer, parsed⟩ : ∃ pointer, opening.outcome = .ok pointer := ⟨_, rfl⟩
  have root : ({ registry := Orders.registry } : Context).root Orders.order = .ok Orders.container := rfl
  have held := held_of_parse Memory.lasting_of_empty parsed
  have linked := (chains_are_linked Memory.lasting_of_empty root held).2.1
  exact ⟨Memory.lasting_of_empty, root, pointer, parsed, held, linked⟩

end Pointer
end RecordAddress
