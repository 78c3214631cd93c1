import RecordAddress.Pointer.Parsing
import RecordAddress.Proofs.Genuine

/-! Parsing where containers were opened before, and where they are opened anew. Both open the same containers
and come to the same. -/

namespace RecordAddress

/-- A property of a trusted container, or of a subtype of it. -/
def Property.Rooted (registry : Registry) (roots : Schema → Prop) (property : Property) : Prop :=
  ∃ (outer : Container) (segment : Segment), outer.Trusted registry roots ∧ outer.at? segment = some property

/-- A pointer all of whose containers are trusted. -/
def Pointer.Trusted (registry : Registry) (roots : Schema → Prop) : Pointer → Prop
  | root container => container.Trusted registry roots
  | property parent _ _ children =>
    parent.Trusted registry roots ∧ ∀ container, children = some container → container.Trusted registry roots
  | element parent _ _ => parent.Trusted registry roots

/-- An opening that is the same as another one, and only opens what is trusted. -/
structure Opening.Repeats {ε α : Type} (registry : Registry) (roots : Schema → Prop) (opening again : Opening ε α)
    (good : α → Prop) : Prop where
  same : opening = again
  opened : ∀ container ∈ opening.opened, container.Trusted registry roots
  found : ∀ value, opening.outcome = .ok value → good value

variable {registry : Registry} {memory : Memory} {roots : Schema → Prop} {container : Container} {property : Property}

namespace Opening.Repeats
variable {ε δ α β : Type} {opening again : Opening ε α} {good : α → Prop} {fine : β → Prop} {next : α → Opening ε β}

theorem of_nothing (nothing : opening.opened = []) (found : ∀ value, opening.outcome = .ok value → good value) :
    opening.Repeats registry roots opening good where
  same := rfl
  opened := by
    intro container within
    rw [nothing] at within
    cases within
  found := found

theorem fail {fault : ε} : (Opening.fail fault : Opening ε α).Repeats registry roots (.fail fault) good :=
  of_nothing rfl nofun

theorem pure {value : α} (holds : good value) :
    (Pure.pure value : Opening ε α).Repeats registry roots (Pure.pure value) good := by
  apply of_nothing rfl
  intro other same
  cases same
  exact holds

theorem ofExcept {outcome : Except ε α} (found : ∀ value, outcome = .ok value → good value) :
    (Opening.ofExcept outcome).Repeats registry roots (.ofExcept outcome) good :=
  of_nothing rfl found

theorem of_any {outcome : Except ε α} :
    (Opening.ofExcept outcome).Repeats registry roots (.ofExcept outcome) fun _ => True :=
  ofExcept fun _ _ => trivial

theorem mapError (repeats : opening.Repeats registry roots again good) (f : ε → δ) :
    (opening.mapError f).Repeats registry roots (again.mapError f) good where
  same := congrArg _ repeats.same
  opened := repeats.opened
  found := fun value success => repeats.found value (by simpa [mapError_eq_ok] using success)

/-- What goes on from equal values stays equal. -/
theorem bind {nextAgain : α → Opening ε β} (repeats : opening.Repeats registry roots again good)
    (further : ∀ value, good value → (next value).Repeats registry roots (nextAgain value) fine) :
    (opening >>= next).Repeats registry roots (again >>= nextAgain) fine := by
  obtain ⟨rfl, opened, found⟩ := repeats
  cases outcome : opening.outcome with
  | error fault =>
    rw [Opening.bind_of_error next outcome, Opening.bind_of_error nextAgain outcome]
    exact ⟨rfl, opened, nofun⟩
  | ok value =>
    obtain ⟨same, laterOpened, laterFound⟩ := further value (found value outcome)
    rw [Opening.bind_of_ok next outcome, Opening.bind_of_ok nextAgain outcome, ← same]
    refine ⟨rfl, ?_, laterFound⟩
    intro container within
    exact (List.mem_append.mp within).elim (opened container) (laterOpened container)

end Opening.Repeats

theorem Context.rootOpening_repeats {schema : Schema} (distinct : Distinct roots) (genuine : memory.Genuine registry roots)
    (isRoot : roots schema) :
    (({ registry, memory } : Context).rootOpening schema).Repeats registry roots
      (({ registry, memory := .forgetful } : Context).rootOpening schema) (·.Trusted registry roots) := by
  have same := root_forgotten distinct genuine isRoot
  have inside : ∀ container, ({ registry, memory } : Context).root schema = .ok container →
      container.Trusted registry roots := by
    intro container opened
    rw [same] at opened
    exact root_trusted isRoot opened
  refine ⟨?_, ?_, inside⟩
  · rw [rootOpening, rootOpening, same]
  · intro container within
    simp only [rootOpening, Opening.ofRoot] at within
    cases opened : ({ registry, memory } : Context).root schema with
    | error fault =>
      rw [opened] at within
      cases within
    | ok other =>
      rw [opened] at within
      obtain rfl := List.mem_singleton.mp within
      exact inside _ opened

theorem Context.nestedOpening_repeats (distinct : Distinct roots) (genuine : memory.Genuine registry roots)
    (rooted : property.Rooted registry roots) :
    (({ registry, memory } : Context).nestedOpening property).Repeats registry roots
      (({ registry, memory := .forgetful } : Context).nestedOpening property)
      (fun nested => ∀ container, nested = some container → container.Trusted registry roots) := by
  obtain ⟨outer, segment, trusted, has⟩ := rooted
  have same := nested_forgotten distinct genuine trusted has
  have inside : ∀ container, ({ registry, memory } : Context).nested property = .ok (some container) →
      container.Trusted registry roots := by
    intro container opened
    rw [same] at opened
    exact nested_trusted trusted has opened
  refine ⟨?_, ?_, ?_⟩
  · rw [nestedOpening, nestedOpening, same]
  · intro container within
    simp only [nestedOpening, Opening.ofNested] at within
    split at within
    next other opened =>
      obtain rfl := List.mem_singleton.mp within
      exact inside _ opened
    next => cases within
  · rintro nested opened container rfl
    exact inside container opened

namespace Pointer
variable {pointer : Pointer} {whole : Value} {dashAllowed : Bool} {token : String}

theorem Trusted.children (trusted : pointer.Trusted registry roots) (has : pointer.children? = some container) :
    container.Trusted registry roots := by
  induction pointer with
  | root =>
    cases has
    exact trusted
  | property => exact trusted.2 container has
  | element parent token index ih => exact ih trusted has

theorem children_of_inside {holdsObjects : Bool} {children : Option Container}
    (awaited : Next.inside holdsObjects children = .property container) : children = some container := by
  cases holdsObjects <;> cases children <;> cases awaited
  rfl

theorem Trusted.next (trusted : pointer.Trusted registry roots) (awaited : pointer.next {} = .property container) :
    container.Trusted registry roots := by
  cases pointer with
  | root =>
    cases awaited
    exact trusted
  | property parent token target children =>
    simp only [Pointer.next] at awaited
    split at awaited
    · cases awaited
    · cases awaited
    · exact trusted.2 container (children_of_inside awaited)
  | element parent token index =>
    simp only [Pointer.next] at awaited
    split at awaited
    · cases awaited
    · split at awaited
      · have above : parent.Trusted registry roots := trusted
        exact above.children (children_of_inside awaited)
      · cases awaited

private theorem subtype_of_subtype? {name : String} (found : ({} : Amendments).subtype? container name = .ok (some property)) :
    container.subtype? name = some property := by
  cases polymorphic : container.isPolymorphic with
  | true =>
    rw [Amendments.subtype?_unchanged container name polymorphic] at found
    exact Except.ok.inj found
  | false =>
    simp only [Amendments.subtype?, Amendments.hasSubtype, Amendments.askSubtypes, polymorphic, bind_eq_ok] at found
    obtain ⟨_, ⟨_, ⟨_, -, impossible⟩, -⟩, -⟩ := found
    cases impossible

/-- The properties that are found in a trusted container. -/
private abbrev Finds (registry : Registry) (roots : Schema → Prop) (found : Option Property) : Prop :=
  ∀ property, found = some property → property.Rooted registry roots

theorem specific_repeats (distinct : Distinct roots) (genuine : memory.Genuine registry roots)
    (trusted : container.Trusted registry roots) (subtype name : String) :
    (specific? { registry, memory } container subtype name).Repeats registry roots
      (specific? { registry, memory := .forgetful } container subtype name)
      (fun specific => ∀ found, specific = some found → Finds registry roots found) := by
  unfold specific?
  have listed : ∀ found, ((({} : Amendments).subtype? container subtype).mapError Fault.broken) = .ok found →
      Finds registry roots found := by
    rintro found given property rfl
    have has := subtype_of_subtype? (mapError_eq_ok.mp given)
    exact ⟨container, .subtype subtype, trusted, has⟩
  apply (Opening.Repeats.ofExcept listed).bind
  intro found rooted
  cases found with
  | none => exact .pure fun _ impossible => nomatch impossible
  | some property =>
    apply ((Context.nestedOpening_repeats distinct genuine (rooted property rfl)).mapError Fault.container).bind
    intro nested inside
    cases nested with
    | none => exact .fail
    | some inner =>
      have named : ∀ found, ((({} : Amendments).property? inner name).mapError Fault.broken) = .ok found →
          Finds registry roots found := by
        rintro found given property rfl
        rw [Amendments.property?_unchanged] at given
        exact ⟨inner, .property name, inside inner rfl, Except.ok.inj given⟩
      apply (Opening.Repeats.ofExcept named).bind
      intro found rooted
      apply Opening.Repeats.pure
      rintro other same
      cases same
      exact rooted

/-- The last part of looking up a token: what a subtype has, or else what the container has itself. -/
private def specificOrOwn (container : Container) (token : String) : Option (Option Property) → Opening Fault (Option Property)
  | some found => pure found
  | none => .ofExcept ((({} : Amendments).property? container token).mapError .broken)

theorem lookUp_repeats (distinct : Distinct roots) (genuine : memory.Genuine registry roots)
    (trusted : container.Trusted registry roots) (token : String) :
    (lookUp { registry, memory } container token).Repeats registry roots
      (lookUp { registry, memory := .forgetful } container token) (Finds registry roots) := by
  have own : ∀ found, ((({} : Amendments).property? container token).mapError Fault.broken) = .ok found →
      Finds registry roots found := by
    rintro found given property rfl
    rw [Amendments.property?_unchanged] at given
    exact ⟨container, .property token, trusted, Except.ok.inj given⟩
  have after (specific : Option (Option Property)) (finds : ∀ found, specific = some found → Finds registry roots found) :
      (specificOrOwn container token specific).Repeats registry roots (specificOrOwn container token specific)
        (Finds registry roots) := by
    cases specific with
    | some found => exact .pure (finds found rfl)
    | none => exact .ofExcept own
  have nothing : (pure none : Opening Fault (Option (Option Property))).Repeats registry roots (pure none)
      (fun specific => ∀ found, specific = some found → Finds registry roots found) :=
    .pure fun _ impossible => nomatch impossible
  unfold lookUp
  cases parts : subtypeAndName? token with
  | none => exact nothing.bind after
  | some both =>
    obtain ⟨subtype, name⟩ := both
    simp only
    split
    · exact (specific_repeats distinct genuine trusted subtype name).bind after
    · exact nothing.bind after

/-- Extending a trusted pointer is the same whether or not containers were opened before. -/
theorem extend_repeats (distinct : Distinct roots) (genuine : memory.Genuine registry roots)
    (trusted : pointer.Trusted registry roots) :
    (extend { registry, memory } whole dashAllowed pointer token).Repeats registry roots
      (extend { registry, memory := .forgetful } whole dashAllowed pointer token) (·.Trusted registry roots) := by
  unfold extend
  cases awaited : pointer.next {} with
  | nothing | scalar | unopened => exact .fail
  | arrayIndex =>
    simp only
    cases ArrayIndex.ofText dashAllowed token with
    | ok index => exact .pure trusted
    | error fault => cases fault <;> exact .fail
  | mapKey => exact .pure trusted
  | property container =>
    have inside := trusted.next awaited
    apply Opening.Repeats.of_any.bind
    intro tells _
    cases tells with
    | true =>
      apply Opening.Repeats.of_any.bind
      intro target _
      apply Opening.Repeats.of_any.bind
      intro located _
      exact .pure ⟨trusted, fun _ impossible => nomatch impossible⟩
    | false =>
      apply (lookUp_repeats distinct genuine inside token).bind
      intro found rooted
      cases found with
      | none => exact .fail
      | some target =>
        apply Opening.Repeats.of_any.bind
        intro located _
        apply ((Context.nestedOpening_repeats distinct genuine (rooted target rfl)).mapError Fault.container).bind
        intro children nested
        exact .pure ⟨trusted, nested⟩

/-- Division extends a pointer as well, by what the divisor reads as. -/
theorem divide_repeats (distinct : Distinct roots) (genuine : memory.Genuine registry roots)
    (trusted : pointer.Trusted registry roots) (divisor : Value) :
    (divide { registry, memory } pointer divisor).Repeats registry roots
      (divide { registry, memory := .forgetful } pointer divisor) (·.Trusted registry roots) := by
  unfold divide
  cases divisor.display? with
  | none => exact .fail
  | some token => exact extend_repeats distinct genuine trusted

private theorem extendAll_repeats (distinct : Distinct roots) (genuine : memory.Genuine registry roots)
    (trusted : pointer.Trusted registry roots) (tokens : List String) :
    (tokens.foldlM (extend { registry, memory } whole dashAllowed) pointer).Repeats registry roots
      (tokens.foldlM (extend { registry, memory := .forgetful } whole dashAllowed) pointer) (·.Trusted registry roots) := by
  induction tokens generalizing pointer with
  | nil => exact .pure trusted
  | cons token rest ih =>
    simp only [List.foldlM_cons]
    exact (extend_repeats distinct genuine trusted).bind fun child childTrusted => ih childTrusted

/-- Parsing is the same whether or not containers were opened before. -/
theorem parse_repeats (distinct : Distinct roots) (genuine : memory.Genuine registry roots)
    (trusted : container.Trusted registry roots) :
    (parse { registry, memory } container dashAllowed whole).Repeats registry roots
      (parse { registry, memory := .forgetful } container dashAllowed whole) (·.Trusted registry roots) := by
  unfold parse
  cases whole with
  | text text =>
    simp only
    split
    · exact .fail
    · cases Token.split text with
      | error fault => exact .fail
      | ok tokens =>
        have atRoot : (root container).Trusted registry roots := trusted
        exact extendAll_repeats distinct genuine atRoot tokens
  | _ => exact .fail

end Pointer
end RecordAddress
