import Mathlib.Data.List.Chain
import RecordAddress.Pointer.Parsing
import RecordAddress.Proofs.Slots

/-! The pointers that parsing leads to. Every one of them extends its parent by what comes after that, so
elements stand right below the property of their collection, and nothing stands below a dash. -/

namespace RecordAddress

/-- The collections that an element can be of. -/
def ElementIndex.kind : ElementIndex → Collection
  | position _ | afterLast => .array
  | key _ => .map

namespace Pointer

/-- The properties that a token stands for inside a container, each with what is nested in it. -/
inductive Names (context : Context) (container : Container) (token : String) : Property → Option Container → Prop
  | typeProperty {target located : Property} : tellsType context.amendments container token = .ok true →
      context.amendments.property container token = .ok target → context.amendments.located target = .ok located →
      Names context container token located none
  | found {target located : Property} {children : Option Container} :
      tellsType context.amendments container token = .ok false →
      (lookUp context container token).outcome = .ok (some target) →
      context.amendments.located target = .ok located → context.nested target = .ok children →
      Names context container token located children

variable {context : Context} {container : Container} {whole : Value} {dashAllowed : Bool}
  {parent child pointer : Pointer} {token : String}

@[simp] theorem outcome_nestedOpening (target : Property) :
    (context.nestedOpening target).outcome = context.nested target := rfl

/-- What a pointer can be extended to, and by which tokens. -/
theorem extend_eq_ok :
    (extend context whole dashAllowed parent token).outcome = .ok child ↔
      (∃ index, parent.next context.amendments = .arrayIndex ∧ ArrayIndex.ofText dashAllowed token = .ok index ∧
        child = .element parent token (.ofArray index)) ∨
      (parent.next context.amendments = .mapKey ∧ child = .element parent token (.key token)) ∨
      (∃ container target children, parent.next context.amendments = .property container ∧
        Names context container token target children ∧ child = .property parent token target children) := by
  unfold extend
  cases next : parent.next context.amendments with
  | nothing | scalar | unopened => simp
  | arrayIndex =>
    cases read : ArrayIndex.ofText dashAllowed token with
    | ok index => simp [eq_comm]
    | error fault => cases fault <;> simp
  | mapKey => simp [eq_comm]
  | property container =>
    simp only [Opening.outcome_bind, Opening.outcome_ofExcept, bind_eq_ok, mapError_eq_ok, reduceCtorEq, false_and,
      exists_false, false_or, Next.property.injEq, exists_and_left, exists_eq_left']
    constructor
    · rintro ⟨tells, told, named⟩
      cases tells with
      | true =>
        simp only [ite_true, Opening.outcome_bind, Opening.outcome_ofExcept, Opening.outcome_pure, bind_eq_ok,
          mapError_eq_ok, Except.ok.injEq] at named
        obtain ⟨target, has, located, at_, same⟩ := named
        exact ⟨located, none, .typeProperty told has at_, same.symm⟩
      | false =>
        simp only [Bool.false_eq_true, ite_false, Opening.outcome_bind, bind_eq_ok] at named
        obtain ⟨found, looked, named⟩ := named
        cases found with
        | none => cases named
        | some target =>
          simp only [Opening.outcome_bind, Opening.outcome_ofExcept, Opening.outcome_mapError, Opening.outcome_pure,
            outcome_nestedOpening, bind_eq_ok, mapError_eq_ok, Except.ok.injEq] at named
          obtain ⟨located, at_, children, nested, same⟩ := named
          exact ⟨located, children, .found told looked at_ nested, same.symm⟩
    · rintro ⟨target, children, names, rfl⟩
      cases names with
      | typeProperty told has at_ =>
        refine ⟨true, told, ?_⟩
        simp [has, at_, bind]
      | found told looked at_ nested =>
        refine ⟨false, told, ?_⟩
        simp [looked, at_, nested, outcome_nestedOpening, bind]

/-- The pointers of a container: the root one, and all that extend one of them. Containers may have been opened
in between, and classes registered. -/
inductive Reached (container : Container) : Pointer → Prop
  | root : Reached container (.root container)
  | extend {registry : Registry} {memory : Memory} {whole : Value} {dashAllowed : Bool} {parent child : Pointer}
      {token : String} : Reached container parent →
      (extend { registry, memory } whole dashAllowed parent token).outcome = .ok child → Reached container child

private theorem Reached.extendAll {registry : Registry} {memory : Memory} {tokens : List String}
    (reached : Reached container parent)
    (extended : (tokens.foldlM (Pointer.extend { registry, memory } whole dashAllowed) parent).outcome = .ok pointer) :
    Reached container pointer := by
  induction tokens generalizing parent with
  | nil =>
    cases extended
    exact reached
  | cons token rest ih =>
    simp only [List.foldlM_cons, Opening.outcome_bind, bind_eq_ok] at extended
    obtain ⟨child, first, extended⟩ := extended
    exact ih (reached.extend first) extended

theorem reached_of_parse {registry : Registry} {memory : Memory}
    (parsed : (parse { registry, memory } container dashAllowed whole).outcome = .ok pointer) :
    Reached container pointer := by
  unfold parse at parsed
  split at parsed
  · split at parsed
    · cases parsed
    · split at parsed
      · cases parsed
      · exact Reached.root.extendAll parsed
  · cases parsed

theorem reached_of_child {registry : Registry} {memory : Memory} (reached : Reached container parent)
    (made : (Pointer.child { registry, memory } dashAllowed parent token).outcome = .ok child) :
    Reached container child :=
  reached.extend made

private theorem inside_is_single (holdsObjects : Bool) (children : Option Container) :
    Next.inside holdsObjects children ≠ .arrayIndex ∧ Next.inside holdsObjects children ≠ .mapKey := by
  cases holdsObjects <;> cases children <;> simp [Next.inside]

private theorem element_is_single (amendments : Amendments) (index : ElementIndex) :
    (element parent token index).next amendments ≠ .arrayIndex ∧ (element parent token index).next amendments ≠ .mapKey := by
  simp only [next]
  split
  · simp
  · split
    · exact inside_is_single ..
    · simp

/-- Only what still is the property of a collection is gone on from by elements. -/
theorem collection_of_awaited {amendments : Amendments} {kind : Collection}
    (elements : pointer.next amendments = match kind with | .array => .arrayIndex | .map => .mapKey) :
    ∃ parent token target children, pointer = .property parent token target children ∧
      amendments.collection? target = some kind := by
  cases pointer with
  | root container => cases kind <;> cases elements
  | property parent token target children =>
    refine ⟨parent, token, target, children, rfl, ?_⟩
    simp only [next] at elements
    split at elements
    next isArray => cases kind <;> first | exact isArray | cases elements
    next isMap => cases kind <;> first | exact isMap | cases elements
    next =>
      cases kind
      · exact absurd elements (inside_is_single ..).1
      · exact absurd elements (inside_is_single ..).2
  | element parent token index =>
    cases kind
    · exact absurd elements (element_is_single amendments index).1
    · exact absurd elements (element_is_single amendments index).2

theorem collection_of_next {kind : Collection}
    (elements : pointer.next {} = match kind with | .array => .arrayIndex | .map => .mapKey) :
    ∃ parent token target children, pointer = .property parent token target children ∧
      target.field.collection? = some kind := by
  simpa only [Amendments.collection?_unchanged] using collection_of_awaited elements

theorem Reached.below_collection {index : ElementIndex} (reached : Reached container (.element parent token index)) :
    ∃ grandparent above target children, parent = .property grandparent above target children ∧
      target.field.collection? = some index.kind := by
  cases reached with
  | extend _ extended =>
    rcases extend_eq_ok.mp extended with ⟨position, next, -, same⟩ | ⟨next, same⟩ | ⟨_, _, _, -, -, same⟩
    · cases same
      cases position <;> exact collection_of_next next
    · cases same
      exact collection_of_next next
    · cases same

theorem parent_of_extend {registry : Registry} {memory : Memory}
    (extended : (extend { registry, memory } whole dashAllowed parent token).outcome = .ok child) :
    child.parent = parent ∧ child.isRoot = false ∧ parent.isDash = false := by
  have going : parent.next {} ≠ .nothing := by
    intro nothing
    rcases extend_eq_ok.mp extended with ⟨_, next, -⟩ | ⟨next, -⟩ | ⟨_, _, _, next, -⟩ <;> cases nothing.symm.trans next
  have noDash : parent.isDash = false := by
    cases dash : parent.isDash with
    | false => rfl
    | true =>
      cases parent with
      | root | property => cases dash
      | element above token index => exact absurd (by simp [next, dash]) going
  rcases extend_eq_ok.mp extended with ⟨_, -, -, rfl⟩ | ⟨-, rfl⟩ | ⟨_, _, _, -, -, rfl⟩ <;> exact ⟨rfl, rfl, noDash⟩

theorem Reached.above (reached : Reached container pointer) : Reached container pointer.parent := by
  cases reached with
  | root => exact .root
  | extend above extended =>
    obtain ⟨rfl, -, -⟩ := parent_of_extend extended
    exact above

theorem slots_dropLast (pointer : Pointer) : pointer.slots.dropLast = if pointer.isRoot then [] else pointer.parent.slots := by
  cases pointer with
  | root | property => simp [slots, isRoot, Pointer.parent]
  | element parent token index => cases index <;> simp [slots, isRoot, Pointer.parent]

private theorem dash_in_slots (within : Slot.dash ∈ pointer.slots) :
    Slot.dash ∈ pointer.slots.dropLast ∨ pointer.isDash = true := by
  cases pointer with
  | root container => cases within
  | property parent token target children => exact .inl (by simpa [slots] using within)
  | element parent token index => cases index <;> simp_all [slots, isDash, index?]

theorem Reached.dash_at_end (reached : Reached container pointer) : Slot.dash ∉ pointer.slots.dropLast := by
  induction reached with
  | root => simp [slots]
  | extend _ extended ih =>
    obtain ⟨rfl, notRoot, noDash⟩ := parent_of_extend extended
    rw [slots_dropLast, notRoot]
    intro within
    rcases dash_in_slots within with above | dash
    · exact ih above
    · rw [noDash] at dash
      cases dash

end Pointer
end RecordAddress
