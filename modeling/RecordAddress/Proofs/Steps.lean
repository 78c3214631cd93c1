import RecordAddress.Proofs.Lasting
import RecordAddress.Proofs.Positions

/-! Steps of pointers: what a pointer becomes when it is extended by a token, and which containers are opened for
that. Every container is opened right below the one before it. -/

namespace RecordAddress

namespace Opening
variable {ε δ α β : Type} {opening : Opening ε α} {outcome : Except ε α} {opened : List Container} {value : α}

theorem bind_eq {next : α → Opening ε β} {result : β} :
    (opening >>= next) = ⟨opened, .ok result⟩ ↔
      ∃ value first rest, opening = ⟨first, .ok value⟩ ∧ next value = ⟨rest, .ok result⟩ ∧ opened = first ++ rest := by
  cases reached : opening.outcome with
  | error fault =>
    rw [bind_of_error next reached]
    constructor
    · exact nofun
    · rintro ⟨_, _, _, rfl, -⟩
      cases reached
  | ok value =>
    rw [bind_of_ok next reached, mk.injEq]
    constructor
    · rintro ⟨rfl, continued⟩
      exact ⟨value, opening.opened, (next value).opened, by rw [← reached], by rw [← continued], rfl⟩
    · rintro ⟨_, first, rest, rfl, continued, rfl⟩
      cases reached
      simp [continued]

@[simp] theorem pure_eq {result : α} : (pure value : Opening ε α) = ⟨opened, .ok result⟩ ↔ opened = [] ∧ value = result := by
  show (⟨[], .ok value⟩ : Opening ε α) = _ ↔ _
  simp [eq_comm]

@[simp] theorem fail_eq {fault : ε} : (fail fault : Opening ε α) = ⟨opened, .ok value⟩ ↔ False := by
  simp [fail]

@[simp] theorem ofExcept_eq : ofExcept outcome = ⟨opened, .ok value⟩ ↔ opened = [] ∧ outcome = .ok value := by
  simp [ofExcept, eq_comm]

@[simp] theorem mapError_eq {f : ε → δ} : opening.mapError f = ⟨opened, .ok value⟩ ↔ opening = ⟨opened, .ok value⟩ := by
  obtain ⟨_, outcome⟩ := opening
  cases outcome <;> simp [mapError]

@[simp] theorem ofNested_eq {nested : Except ε (Option Container)} {children : Option Container} :
    ofNested nested = ⟨opened, .ok children⟩ ↔ nested = .ok children ∧ opened = children.toList := by
  rcases nested with fault | _ | inner
  · simp [ofNested]
  · cases children <;> simp [ofNested, eq_comm]
  · cases children with
    | none => simp [ofNested]
    | some other =>
      constructor
      · intro same
        cases same
        exact ⟨rfl, rfl⟩
      · rintro ⟨same, rfl⟩
        cases same
        rfl

end Opening

namespace Pointer
variable {registry : Registry} {memory : Memory} {container : Container} {token : String} {opened : List Container}

/-- What a token stands for inside a container, and what is opened on the way there. -/
inductive Yields (registry : Registry) (memory : Memory) (container : Container) (token : String) :
    Property → Option Container → List Container → Prop
  | typeProperty {target : Property} : tellsType {} container token = .ok true →
      container.property? token = some target → Yields registry memory container token target none []
  | own {target : Property} {children : Option Container} : tellsType {} container token = .ok false →
      (∀ subtype name, subtypeAndName? token = some (subtype, name) → container.subtype? subtype = none) →
      container.property? token = some target → ({ registry, memory } : Context).nested target = .ok children →
      Yields registry memory container token target children children.toList
  | ofSubtype {subtype name : String} {property target : Property} {specific : Container}
      {children : Option Container} : tellsType {} container token = .ok false →
      subtypeAndName? token = some (subtype, name) → container.subtype? subtype = some property →
      ({ registry, memory } : Context).nested property = .ok (some specific) → specific.property? name = some target →
      ({ registry, memory } : Context).nested target = .ok children →
      Yields registry memory container token target children (specific :: children.toList)

/-- What a pointer becomes when it is extended by a token. -/
inductive Step (registry : Registry) (memory : Memory) (dashAllowed : Bool) (parent : Pointer) (token : String) :
    Pointer → List Container → Prop
  | position {index : ArrayIndex} : parent.next {} = .arrayIndex → ArrayIndex.ofText dashAllowed token = .ok index →
      Step registry memory dashAllowed parent token (.element parent token (.ofArray index)) []
  | entry : parent.next {} = .mapKey →
      Step registry memory dashAllowed parent token (.element parent token (.key token)) []
  | property {container : Container} {target : Property} {children : Option Container} {opened : List Container} :
      parent.next {} = .property container → Yields registry memory container token target children opened →
      Step registry memory dashAllowed parent token (.property parent token target children) opened

private theorem specific?_of_listed {subtype name : String} {property : Property} {found : Option (Option Property)}
    (polymorphic : container.isPolymorphic = true) (listed : container.subtype? subtype = some property) :
    specific? { registry, memory } container subtype name = ⟨opened, .ok found⟩ ↔
      ∃ specific, ({ registry, memory } : Context).nested property = .ok (some specific) ∧
        found = some (specific.property? name) ∧ opened = [specific] := by
  simp only [specific?, Amendments.subtype?_unchanged container subtype polymorphic, listed, mapError_ok,
    Context.nestedOpening, Opening.bind_eq, Opening.ofExcept_eq, Except.ok.injEq]
  constructor
  · rintro ⟨_, first, rest, ⟨rfl, rfl⟩, inside, rfl⟩
    simp only [Opening.bind_eq, Opening.mapError_eq, Opening.ofNested_eq] at inside
    obtain ⟨children, first, rest, ⟨nested, rfl⟩, named, rfl⟩ := inside
    cases children with
    | none => simp at named
    | some specific =>
      simp only [Opening.bind_eq, Opening.ofExcept_eq, Opening.pure_eq, Amendments.property?_unchanged, mapError_ok,
        Except.ok.injEq] at named
      obtain ⟨_, _, _, ⟨rfl, rfl⟩, ⟨rfl, rfl⟩, rfl⟩ := named
      exact ⟨specific, nested, rfl, by simp⟩
  · rintro ⟨specific, nested, rfl, rfl⟩
    refine ⟨_, [], [specific], ⟨rfl, rfl⟩, ?_, rfl⟩
    simp only [Opening.bind_eq, Opening.mapError_eq, Opening.ofNested_eq]
    exact ⟨_, [specific], [], ⟨nested, rfl⟩, by simp [Opening.bind_eq], rfl⟩

theorem lookUp_of_subtype {subtype name : String} {property : Property} {found : Option Property}
    (parts : subtypeAndName? token = some (subtype, name)) (listed : container.subtype? subtype = some property) :
    lookUp { registry, memory } container token = ⟨opened, .ok found⟩ ↔
      ∃ specific, ({ registry, memory } : Context).nested property = .ok (some specific) ∧
        found = specific.property? name ∧ opened = [specific] := by
  have polymorphic : container.isPolymorphic = true := by
    cases variants : container.variants with
    | none => simp [Container.subtype?, variants] at listed
    | some => simp [Container.isPolymorphic, variants]
  simp only [lookUp, parts, Amendments.isPolymorphic_unchanged, polymorphic, Value.isTruthy, ite_true, Opening.bind_eq,
    specific?_of_listed polymorphic listed]
  constructor
  · rintro ⟨_, _, _, ⟨specific, nested, rfl, rfl⟩, done, rfl⟩
    simp only [Opening.pure_eq] at done
    obtain ⟨rfl, rfl⟩ := done
    exact ⟨specific, nested, rfl, rfl⟩
  · rintro ⟨specific, nested, rfl, rfl⟩
    exact ⟨_, [specific], [], ⟨specific, nested, rfl, rfl⟩, rfl, rfl⟩

theorem lookUp_eq_step {target : Property} {children : Option Container}
    (told : tellsType {} container token = .ok false) :
    (∃ first rest, lookUp { registry, memory } container token = ⟨first, .ok (some target)⟩ ∧
      ({ registry, memory } : Context).nested target = .ok children ∧ rest = children.toList ∧ opened = first ++ rest) ↔
      Yields registry memory container token target children opened := by
  constructor
  · rintro ⟨first, _, looked, nested, rfl, rfl⟩
    rcases plain_or_specific container token with plain | ⟨subtype, name, property, parts, listed⟩
    · rw [lookUp_of_plain plain] at looked
      cases found : container.property? token with
      | none => simp [found] at looked
      | some other =>
        simp only [found, Opening.mk.injEq, Except.ok.injEq, Option.some.injEq] at looked
        obtain ⟨rfl, rfl⟩ := looked
        exact .own told plain found nested
    · obtain ⟨specific, inside, found, rfl⟩ := (lookUp_of_subtype parts listed).mp looked
      exact .ofSubtype told parts listed inside found.symm nested
  · intro yields
    cases yields with
    | typeProperty tells => cases told.symm.trans tells
    | own _ plain found nested => exact ⟨[], _, by rw [lookUp_of_plain plain, found], nested, rfl, rfl⟩
    | @ofSubtype _ _ _ _ specific _ _ parts listed inside found nested =>
      exact ⟨[specific], _, (lookUp_of_subtype parts listed).mpr ⟨specific, inside, found.symm, rfl⟩, nested, rfl, rfl⟩

theorem extend_eq_step {whole : Value} {dashAllowed : Bool} {parent child : Pointer} :
    extend { registry, memory } whole dashAllowed parent token = ⟨opened, .ok child⟩ ↔
      Step registry memory dashAllowed parent token child opened := by
  unfold extend
  cases next : parent.next {} with
  | nothing | scalar | unopened =>
    simp only [Opening.fail_eq, false_iff]
    rintro (⟨awaited, -⟩ | awaited | ⟨awaited, -⟩) <;> cases next.symm.trans awaited
  | arrayIndex =>
    constructor
    · intro same
      cases read : ArrayIndex.ofText dashAllowed token with
      | ok index =>
        simp only [read, Opening.pure_eq] at same
        obtain ⟨rfl, rfl⟩ := same
        exact .position next read
      | error fault => cases fault <;> simp [read] at same
    · rintro (⟨-, read⟩ | awaited | ⟨awaited, -⟩)
      · simp [read]
      all_goals cases next.symm.trans awaited
  | mapKey =>
    simp only [Opening.pure_eq]
    constructor
    · rintro ⟨rfl, rfl⟩
      exact .entry next
    · rintro (⟨awaited, -⟩ | - | ⟨awaited, -⟩)
      · cases next.symm.trans awaited
      · exact ⟨rfl, rfl⟩
      · cases next.symm.trans awaited
  | property container =>
    simp only [Opening.bind_eq, Opening.ofExcept_eq, mapError_eq_ok]
    constructor
    · rintro ⟨tells, _, _, ⟨rfl, told⟩, named, rfl⟩
      cases tells with
      | true =>
        simp only [ite_true, Opening.bind_eq, Opening.ofExcept_eq, mapError_eq_ok, Amendments.property_unchanged,
          Amendments.located_unchanged, Opening.pure_eq, Except.ok.injEq] at named
        obtain ⟨target, _, _, ⟨rfl, found⟩, ⟨_, _, _, ⟨rfl, rfl⟩, ⟨rfl, rfl⟩, rfl⟩, rfl⟩ := named
        exact .property next (.typeProperty told found)
      | false =>
        simp only [Bool.false_eq_true, ite_false, Opening.bind_eq] at named
        obtain ⟨found, first, rest, looked, named, rfl⟩ := named
        cases found with
        | none => simp at named
        | some target =>
          simp only [Opening.bind_eq, Opening.ofExcept_eq, Amendments.located_unchanged, mapError_ok, Except.ok.injEq,
            Opening.mapError_eq, Context.nestedOpening, Opening.ofNested_eq, Opening.pure_eq] at named
          obtain ⟨_, _, _, ⟨rfl, rfl⟩, ⟨children, _, _, ⟨nested, rfl⟩, ⟨rfl, rfl⟩, rfl⟩, rfl⟩ := named
          exact .property next ((lookUp_eq_step told).mp ⟨first, _, looked, nested, rfl, by simp⟩)
    · rintro (⟨awaited, -⟩ | awaited | ⟨awaited, yields⟩)
      · cases next.symm.trans awaited
      · cases next.symm.trans awaited
      · cases next.symm.trans awaited
        by_cases told : tellsType {} container token = .ok false
        · obtain ⟨first, _, looked, nested, rfl, rfl⟩ := (lookUp_eq_step told).mpr yields
          refine ⟨false, [], _, ⟨rfl, told⟩, ?_, rfl⟩
          simp only [Bool.false_eq_true, ite_false, Opening.bind_eq]
          refine ⟨_, first, _, looked, ?_, rfl⟩
          simp [Opening.bind_eq, Context.nestedOpening, nested]
        · cases yields with
          | typeProperty tells found =>
            refine ⟨true, [], [], ⟨rfl, tells⟩, ?_, rfl⟩
            simp [Opening.bind_eq, Amendments.property_unchanged.mpr found]
          | own unlike | ofSubtype unlike => exact absurd unlike told

theorem step_of_extend {whole : Value} {dashAllowed : Bool} {parent child : Pointer}
    (extended : (extend { registry, memory } whole dashAllowed parent token).outcome = .ok child) :
    Step registry memory dashAllowed parent token child
      (extend { registry, memory } whole dashAllowed parent token).opened :=
  extend_eq_step.mp (by rw [← extended])

/-- Pointers that have a container at hand wherever there are objects. -/
inductive Sturdy : Pointer → Prop
  | root {container : Container} {schema : Schema} {place : Place} : container.Opens schema place →
      Sturdy (.root container)
  | property {parent : Pointer} {token : String} {target : Property} {children : Option Container} : Sturdy parent →
      parent.isDash = false → (children.isSome = true ↔ target.field.valueType = .object) →
      (∀ inner ∈ children, inner.Described) → Sturdy (.property parent token target children)
  | element {above : Pointer} {inside token : String} {target : Property} {children : Option Container}
      {index : ElementIndex} : Sturdy (.property above inside target children) →
      target.field.collection? = some index.kind → (∀ key, index = .key key → key = token) →
      Sturdy (.element (.property above inside target children) token index)

theorem Sturdy.described {pointer : Pointer} (sturdy : pointer.Sturdy) :
    ∀ inner ∈ pointer.children?, inner.Described := by
  induction sturdy with
  | root opens =>
    rintro inner ⟨rfl⟩
    exact ⟨_, _, opens⟩
  | property _ _ _ opens => exact opens
  | element _ _ _ ih => exact ih

theorem Sturdy.at_hand {parent : Pointer} (sturdy : parent.Sturdy) (awaited : parent.next {} = .property container) :
    parent.children? = some container ∧ container.Described := by
  have both : (parent.position {}).collection = none ∧ parent.children? = some container := object_of_next awaited
  exact ⟨both.2, sturdy.described container both.2⟩

variable {schema : Schema} {place : Place} {target : Property} {children : Option Container}

theorem specific_opens {subtype : String} {property : Property} {specific : Container}
    (lasting : memory.Lasting) (opens : container.Opens schema place) (listed : container.subtype? subtype = some property)
    (nested : ({ registry, memory } : Context).nested property = .ok (some specific)) :
    (∃ schema, specific.Opens schema (place.below (.subtype subtype))) ∧ memory.Admits specific := by
  have standing : property.place = some (place.below (.subtype subtype)) := opens.place_of_at? listed
  exact (Context.opens_of_nested lasting standing nested).2 specific rfl

/-- Containers that are opened one right below the other. None of them takes the place of one that is known. -/
inductive Descends (memory : Memory) : Container → List Container → Container → Prop
  | stay {outer : Container} : Descends memory outer [] outer
  | go {outer inner last : Container} {rest : List Container} : inner.Described →
      memory.Admits inner → outer.depth < inner.depth → Descends memory inner rest last →
      Descends memory outer (inner :: rest) last

theorem Descends.append {outer middle last : Container} {first rest : List Container}
    (descends : Descends memory outer first middle) (further : Descends memory middle rest last) :
    Descends memory outer (first ++ rest) last := by
  induction descends with
  | stay => exact further
  | go described admits deeper _ ih => exact .go described admits deeper (ih further)

theorem Descends.depth_le {outer last : Container} (descends : Descends memory outer opened last) :
    outer.depth ≤ last.depth := by
  induction descends with
  | stay => exact Nat.le_refl _
  | go _ _ deeper _ ih => exact Nat.le_trans (Nat.le_of_lt deeper) ih

theorem Descends.between {outer last : Container} (descends : Descends memory outer opened last) :
    ∀ inner ∈ opened, outer.depth < inner.depth ∧ inner.depth ≤ last.depth := by
  induction descends with
  | stay => exact nofun
  | go _ _ deeper further ih =>
    intro inner within
    rcases List.mem_cons.mp within with rfl | within
    · exact ⟨deeper, further.depth_le⟩
    · exact ⟨Nat.lt_trans deeper (ih inner within).1, (ih inner within).2⟩

theorem Descends.described {outer last : Container} (descends : Descends memory outer opened last) :
    ∀ inner ∈ opened, inner.Described := by
  induction descends with
  | stay => exact nofun
  | go described _ _ _ ih => exact List.forall_mem_cons.mpr ⟨described, ih⟩

theorem Descends.end_described {outer last : Container} (descends : Descends memory outer opened last)
    (described : outer.Described) : last.Described := by
  induction descends with
  | stay => exact described
  | go inner _ _ _ ih => exact ih inner

theorem Descends.admits {outer last : Container} (descends : Descends memory outer opened last) :
    ∀ inner ∈ opened, memory.Admits inner := by
  induction descends with
  | stay => exact nofun
  | go _ admits _ _ ih => exact List.forall_mem_cons.mpr ⟨admits, ih⟩

theorem Descends.deeper {outer last : Container} (descends : Descends memory outer opened last) :
    opened.Pairwise fun outer inner => outer.depth < inner.depth := by
  induction descends with
  | stay => exact .nil
  | go _ _ _ further ih => exact .cons (fun inner within => (further.between inner within).1) ih

/-- All that was opened on the way down stays. -/
theorem Descends.holds {outer last : Container} (lasting : memory.Lasting)
    (descends : Descends memory outer opened last) : ∀ inner ∈ opened, (memory.rememberAll opened).Holds inner :=
  lasting.holds_rememberAll descends.described descends.admits descends.deeper

theorem type_property_is_text (opens : container.Opens schema place)
    (told : tellsType {} container token = .ok true) (found : container.property? token = some target) :
    target.field.valueType = .scalar .string := by
  obtain ⟨polymorphic, rfl⟩ : schema.isPolymorphic = true ∧ schema.typeProperty = token := by
    simpa [tellsType_unchanged opens] using told
  rw [Container.property?, opens.entries, if_pos polymorphic, Entries.find?_put, if_pos rfl] at found
  cases found
  rfl

private theorem descends_of_nested {name : String} (lasting : memory.Lasting) (opens : container.Opens schema place)
    (found : container.property? name = some target)
    (nested : ({ registry, memory } : Context).nested target = .ok children) :
    (children.isSome = true ↔ target.field.valueType = .object) ∧
      ∃ last, Descends memory container children.toList last ∧ ∀ inner ∈ children, inner = last := by
  have standing : target.place = some (place.below (.property name)) := opens.place_of_at? found
  obtain ⟨present, inside⟩ := Context.opens_of_nested lasting standing nested
  refine ⟨present, ?_⟩
  cases children with
  | none => exact ⟨container, .stay, nofun⟩
  | some inner =>
    obtain ⟨⟨_, innerOpens⟩, admits⟩ := inside inner rfl
    exact ⟨inner, .go ⟨_, _, innerOpens⟩ admits (opens.shallower innerOpens) .stay, by simp⟩

/-- What a token stands for has a container exactly if it holds objects. That is the last one opened for it. -/
theorem Yields.descends (lasting : memory.Lasting) (opens : container.Opens schema place)
    (yields : Yields registry memory container token target children opened) :
    (children.isSome = true ↔ target.field.valueType = .object) ∧
      ∃ last, Descends memory container opened last ∧ ∀ inner ∈ children, inner = last := by
  cases yields with
  | typeProperty told found =>
    refine ⟨?_, container, .stay, nofun⟩
    simp [type_property_is_text opens told found]
  | own _ _ found nested => exact descends_of_nested lasting opens found nested
  | ofSubtype _ _ listed inside found nested =>
    obtain ⟨⟨_, specificOpens⟩, admits⟩ := specific_opens lasting opens listed inside
    obtain ⟨present, last, descends, same⟩ := descends_of_nested lasting specificOpens found nested
    exact ⟨present, last, .go ⟨_, _, specificOpens⟩ admits (opens.shallower specificOpens) descends, same⟩

variable {dashAllowed : Bool} {parent child pointer : Pointer}

theorem Step.parent_eq (step : Step registry memory dashAllowed parent token child opened) :
    child.parent = parent ∧ child.isRoot = false ∧ parent.isDash = false := by
  have extended : (extend { registry, memory } .null dashAllowed parent token).outcome = .ok child := by
    rw [extend_eq_step.mpr step]
  exact parent_of_extend extended

theorem Step.sturdy (lasting : memory.Lasting) (sturdy : parent.Sturdy)
    (step : Step registry memory dashAllowed parent token child opened) : child.Sturdy := by
  obtain ⟨-, -, noDash⟩ := step.parent_eq
  cases step with
  | @position index awaited =>
    obtain ⟨_, _, _, _, rfl, kind⟩ := @collection_of_next parent .array awaited
    cases index <;> exact .element sturdy kind nofun
  | entry awaited =>
    obtain ⟨_, _, _, _, rfl, kind⟩ := @collection_of_next parent .map awaited
    refine .element sturdy kind ?_
    rintro key ⟨rfl⟩
    rfl
  | property awaited yields =>
    obtain ⟨-, _, _, opens⟩ := sturdy.at_hand awaited
    obtain ⟨present, last, descends, same⟩ := yields.descends lasting opens
    refine .property sturdy noDash present ?_
    intro inner within
    obtain rfl := same inner within
    exact descends.end_described ⟨_, _, opens⟩

/-- The containers that are opened between a pointer and one further down. -/
def Between (memory : Memory) (pointer lower : Pointer) (opened : List Container) : Prop :=
  match pointer.children? with
  | none => opened = [] ∧ lower.children? = none
  | some outer => ∃ last, Descends memory outer opened last ∧ ∀ inner ∈ lower.children?, inner = last

theorem between_of_same {lower : Pointer} (same : lower.children? = pointer.children?) : Between memory pointer lower [] := by
  unfold Between
  cases has : pointer.children? with
  | none => exact ⟨rfl, same.trans has⟩
  | some outer =>
    refine ⟨outer, .stay, ?_⟩
    intro inner within
    exact (Option.some.inj (within.symm.trans (same.trans has))).symm ▸ rfl

theorem Step.between (lasting : memory.Lasting) (sturdy : parent.Sturdy)
    (step : Step registry memory dashAllowed parent token child opened) : Between memory parent child opened := by
  cases step with
  | position | entry => exact between_of_same rfl
  | property awaited yields =>
    obtain ⟨has, _, _, opens⟩ := sturdy.at_hand awaited
    obtain ⟨-, last, descends, same⟩ := yields.descends lasting opens
    rw [Between, has]
    exact ⟨last, descends, same⟩

theorem Between.append {middle lower : Pointer} {first rest : List Container} (upper : Between memory pointer middle first)
    (further : Between memory middle lower rest) : Between memory pointer lower (first ++ rest) := by
  unfold Between at upper further ⊢
  cases has : pointer.children? with
  | none =>
    simp only [has] at upper
    obtain ⟨rfl, nothing⟩ := upper
    simpa [nothing] using further
  | some outer =>
    simp only [has] at upper
    obtain ⟨last, descends, same⟩ := upper
    cases inside : middle.children? with
    | none =>
      simp only [inside] at further
      obtain ⟨rfl, nothing⟩ := further
      refine ⟨last, by simpa using descends, ?_⟩
      simp [nothing]
    | some inner =>
      simp only [inside] at further
      obtain ⟨lowest, deeper, ends⟩ := further
      obtain rfl := same inner inside
      exact ⟨lowest, descends.append deeper, ends⟩

variable {lower : Pointer}

theorem Between.holds (lasting : memory.Lasting) (between : Between memory pointer lower opened) :
    ∀ inner ∈ opened, (memory.rememberAll opened).Holds inner := by
  unfold Between at between
  split at between
  · obtain ⟨rfl, -⟩ := between
    exact nofun
  · obtain ⟨_, descends, -⟩ := between
    exact descends.holds lasting

theorem Between.described (between : Between memory pointer lower opened) :
    ∀ inner ∈ opened, inner.Described := by
  unfold Between at between
  split at between
  · obtain ⟨rfl, -⟩ := between
    exact nofun
  · obtain ⟨_, descends, -⟩ := between
    exact descends.described

/-- What is opened between two pointers does not matter below the lower one. -/
theorem Between.agrees {later : Memory} (between : Between memory pointer lower opened)
    (agrees : ∀ outer ∈ pointer.children?, memory.AgreesBelow outer.depth later) :
    ∀ outer ∈ lower.children?, memory.AgreesBelow outer.depth (later.rememberAll opened) := by
  unfold Between at between
  split at between
  · intro outer within
    rw [between.2] at within
    cases within
  next upper has =>
    obtain ⟨lowest, descends, same⟩ := between
    intro outer within
    obtain rfl := same outer within
    have above := (agrees upper has).mono descends.depth_le
    exact above.trans (Memory.agreesBelow_rememberAll later fun inner opened => (descends.between inner opened).2)

variable {present : Registry} {former later : Memory}

/-- A token stands for the same wherever the same is nested in the properties that are deeper. -/
private theorem Yields.transfer (lasting : former.Lasting) (opens : container.Opens schema place)
    (yields : Yields registry former container token target children opened)
    (again : ∀ (property : Property) (nested : Option Container) (below : Place), property.place = some below →
      container.depth < below.depth → (∀ inner ∈ nested, inner ∈ opened) →
      ({ registry, memory := former } : Context).nested property = .ok nested →
      ({ registry := present, memory } : Context).nested property = .ok nested) :
    Yields present memory container token target children opened := by
  cases yields with
  | typeProperty told found => exact .typeProperty told found
  | own told plain found nested =>
    have standing : target.place = some (place.below (.property token)) := opens.place_of_at? found
    have deeper : container.depth < (place.below (.property token)).depth := by simp [opens.depth_eq, Place.below]
    exact .own told plain found (again target children _ standing deeper (by simp) nested)
  | @ofSubtype subtype name property _ specific _ told parts listed inside found nested =>
    obtain ⟨⟨_, specificOpens⟩, -⟩ := specific_opens lasting opens listed inside
    have standing : property.place = some (place.below (.subtype subtype)) := opens.place_of_at? listed
    have deeper : container.depth < (place.below (.subtype subtype)).depth := by simp [opens.depth_eq, Place.below]
    have lower : target.place = some ((place.below (.subtype subtype)).below (.property name)) :=
      specificOpens.place_of_at? found
    have deepest : container.depth < ((place.below (.subtype subtype)).below (.property name)).depth :=
      Nat.lt_succ_of_lt deeper
    exact .ofSubtype told parts listed (again property _ _ standing deeper (by simp) inside) found
      (again target children _ lower deepest (fun inner within => List.mem_cons_of_mem _ (by simpa using within)) nested)

/-- A step can be made again wherever its containers are held, whichever classes are registered by then. -/
theorem Step.again {dashStillAllowed : Bool} (lasting : former.Lasting) (sturdy : parent.Sturdy)
    (step : Step registry former dashAllowed parent token child opened)
    (dash : child.isDash = true → dashStillAllowed = true) (holds : ∀ inner ∈ opened, memory.Holds inner) :
    Step present memory dashStillAllowed parent token child opened := by
  cases step with
  | position awaited read =>
    refine .position awaited (ArrayIndex.ofText_eq_ok.mpr ?_)
    rcases ArrayIndex.ofText_eq_ok.mp read with ⟨same, -, rfl⟩ | decimal
    · exact .inl ⟨same, dash rfl, rfl⟩
    · exact .inr decimal
  | entry awaited => exact .entry awaited
  | property awaited yields =>
    obtain ⟨-, _, _, opens⟩ := sturdy.at_hand awaited
    refine .property awaited (yields.transfer lasting opens ?_)
    intro property nested below standing _ within inside
    exact Context.nested_again lasting standing inside fun inner known => holds inner (within inner known)

/-- A step depends on nothing that is remembered above it. -/
theorem Step.of_agree (lasting : memory.Lasting) (sturdy : parent.Sturdy)
    (agrees : ∀ outer ∈ parent.children?, memory.AgreesBelow outer.depth later)
    (step : Step registry memory dashAllowed parent token child opened) :
    Step registry later dashAllowed parent token child opened := by
  cases step with
  | position awaited read => exact .position awaited read
  | entry awaited => exact .entry awaited
  | property awaited yields =>
    obtain ⟨has, _, _, opens⟩ := sturdy.at_hand awaited
    refine .property awaited (yields.transfer lasting opens ?_)
    intro property nested below standing deeper _ inside
    rw [← Context.nested_of_agree (agrees _ has) standing deeper]
    exact inside

/-- What one step keeps, a pointer keeps that is extended by token after token. -/
theorem extendAll_sturdy {whole : Value} {tokens : List String} {last : Pointer} (lasting : memory.Lasting)
    (sturdy : pointer.Sturdy)
    (extended : tokens.foldlM (extend { registry, memory } whole dashAllowed) pointer = ⟨opened, .ok last⟩) :
    last.Sturdy ∧ Between memory pointer last opened := by
  induction tokens generalizing pointer opened with
  | nil =>
    obtain ⟨rfl, rfl⟩ := Opening.pure_eq.mp extended
    exact ⟨sturdy, between_of_same rfl⟩
  | cons token rest ih =>
    rw [List.foldlM_cons, Opening.bind_eq] at extended
    obtain ⟨child, first, others, stepped, further, rfl⟩ := extended
    have step := extend_eq_step.mp stepped
    obtain ⟨lower, between⟩ := ih (step.sturdy lasting sturdy) further
    exact ⟨lower, (step.between lasting sturdy).append between⟩

end Pointer
end RecordAddress
