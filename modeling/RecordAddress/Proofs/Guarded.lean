import RecordAddress.Proofs.Reached

/-! What is opened while pointers are parsed, and that no container is missed in between. What one step keeps is
told once, for all that the containers may be asked to be. -/

namespace RecordAddress
variable {registry : Registry} {memory : Memory} {container : Container} {token : String} {fine : Container → Prop}

/-- An opening of fine containers only, which never misses the container of an object. -/
structure Opening.Guarded {α : Type} (fine : Container → Prop) (opening : Opening Pointer.Fault α) : Prop where
  opened : ∀ inner ∈ opening.opened, fine inner
  at_hand : opening.outcome ≠ .error .unopened

namespace Opening.Guarded
variable {α β : Type}

theorem pure {value : α} : (Pure.pure value : Opening Pointer.Fault α).Guarded fine :=
  ⟨nofun, nofun⟩

theorem fail {fault : Pointer.Fault} (other : fault ≠ .unopened) :
    (Opening.fail fault : Opening Pointer.Fault α).Guarded fine :=
  ⟨nofun, fun same => other (Except.error.inj same)⟩

theorem refused {whole : Value} {reason : Reason} :
    (Opening.fail (Pointer.refusal whole reason) : Opening Pointer.Fault α).Guarded fine := by
  apply fail
  cases named : whole.display? with
  | none =>
    rw [Pointer.refusal_of_unnamed named]
    exact nofun
  | some name =>
    rw [Pointer.refusal_of_named named]
    exact nofun

/-- What a container is asked for may break down, but misses no container. -/
theorem broken {outcome : Except Value.Breakdown α} :
    (Opening.ofExcept (outcome.mapError Pointer.Fault.broken)).Guarded fine :=
  ⟨nofun, by cases outcome <;> nofun⟩

theorem bind {opening : Opening Pointer.Fault α} {next : α → Opening Pointer.Fault β} (guarded : opening.Guarded fine)
    (further : ∀ value, opening.outcome = .ok value → (next value).Guarded fine) : (opening >>= next).Guarded fine := by
  cases outcome : opening.outcome with
  | error fault =>
    rw [bind_of_error next outcome]
    refine ⟨guarded.opened, ?_⟩
    intro missed
    obtain rfl := Except.error.inj missed
    exact guarded.at_hand outcome
  | ok value =>
    rw [bind_of_ok next outcome]
    refine ⟨?_, (further value outcome).at_hand⟩
    intro inner within
    exact (List.mem_append.mp within).elim (guarded.opened inner) ((further value outcome).opened inner)

theorem nested {property : Property}
    (inside : ∀ inner, ({ registry, memory } : Context).nested property = .ok (some inner) → fine inner) :
    ((({ registry, memory } : Context).nestedOpening property).mapError Pointer.Fault.container).Guarded fine := by
  constructor
  · intro inner within
    simp only [Opening.opened_mapError, Context.nestedOpening, Opening.ofNested] at within
    split at within
    next opened =>
      obtain rfl := List.mem_singleton.mp within
      exact inside _ opened
    next => cases within
  · intro missed
    obtain ⟨fault, -, impossible⟩ := mapError_eq_error.mp missed
    cases impossible

end Opening.Guarded

namespace Pointer
variable {parent : Pointer} {whole : Value} {dashAllowed : Bool}

/-- What a subtype adds is always an object. -/
private theorem subtype_not_scalar {subtype : String} {property : Property}
    (listed : container.subtype? subtype = some property) :
    ({ registry, memory } : Context).nested property ≠ .ok none := by
  obtain ⟨reference, -, rfl⟩ := Option.map_eq_some_iff.mp listed
  simp only [Context.nested, Amendments.isEmpty_unchanged, ite_true, Property.nested, Container.bind,
    Container.subtypeField, Field.content]
  cases ({ registry, memory } : Context).opener _ _ reference <;> simp [Except.map]

private theorem specific?_guarded (polymorphic : container.isPolymorphic = true)
    (subtypes : ∀ subtype property inner, container.subtype? subtype = some property →
      ({ registry, memory } : Context).nested property = .ok (some inner) → fine inner) (subtype name : String) :
    (specific? { registry, memory } container subtype name).Guarded fine := by
  unfold specific?
  refine .bind .broken fun found has => ?_
  cases found with
  | none => exact .pure
  | some property =>
    have listed : container.subtype? subtype = some property := by simpa [polymorphic] using has
    refine .bind (.nested fun inner => subtypes subtype property inner listed) fun nested inside => ?_
    cases nested with
    | none =>
      -- the subtype would be asked for a property without a container at hand
      exact absurd (mapError_eq_ok.mp inside) (subtype_not_scalar listed)
    | some specific => exact .bind .broken fun _ _ => .pure

private theorem lookUp_guarded (subtypes : ∀ subtype property inner, container.subtype? subtype = some property →
      ({ registry, memory } : Context).nested property = .ok (some inner) → fine inner) (token : String) :
    (lookUp { registry, memory } container token).Guarded fine := by
  unfold lookUp
  extract_lets goOn
  have guarded : ∀ found, (goOn found).Guarded fine := by
    intro found
    cases found with
    | none => exact .broken
    | some found => exact .pure
  cases parts : subtypeAndName? token with
  | none => exact .bind .pure fun found _ => guarded found
  | some both =>
    cases polymorphic : container.isPolymorphic with
    | false =>
      simp only [Amendments.isPolymorphic_unchanged, polymorphic, Value.isTruthy, Bool.false_eq_true, ite_false]
      exact .bind .pure fun found _ => guarded found
    | true =>
      simp only [Amendments.isPolymorphic_unchanged, polymorphic, Value.isTruthy, ite_true]
      exact .bind (specific?_guarded polymorphic subtypes both.1 both.2) fun found _ => guarded found

/-- Extending a pointer opens what is nested in subtypes and in what the token names, and nothing else. -/
theorem extend_guarded (at_hand : parent.next {} ≠ .unopened)
    (subtypes : ∀ container subtype property inner, parent.next {} = .property container →
      container.subtype? subtype = some property →
      ({ registry, memory } : Context).nested property = .ok (some inner) → fine inner)
    (named : ∀ container target inner, parent.next {} = .property container →
      Names { registry, memory } container token target (some inner) → fine inner) :
    (extend { registry, memory } whole dashAllowed parent token).Guarded fine := by
  unfold extend
  cases next : parent.next {} with
  | nothing | scalar => exact .refused
  | unopened => exact absurd next at_hand
  | mapKey => exact .pure
  | arrayIndex =>
    cases ArrayIndex.ofText dashAllowed token with
    | ok index => exact .pure
    | error fault => cases fault <;> first | exact .refused | exact .fail nofun
  | property container =>
    refine .bind .broken fun tells told => ?_
    cases tells with
    | true => exact .bind .broken fun _ _ => .bind .broken fun _ _ => .pure
    | false =>
      have inSubtypes := fun subtype property inner => subtypes container subtype property inner next
      refine .bind (lookUp_guarded inSubtypes token) fun found looked => ?_
      cases found with
      | none => exact .refused
      | some target =>
        refine .bind .broken fun located at_ => ?_
        have unlike : tellsType {} container token = .ok false := mapError_eq_ok.mp told
        obtain rfl : target = located := Except.ok.inj at_
        have inTarget := fun inner nested => named container target inner next (.found unlike looked rfl nested)
        exact .bind (.nested inTarget) fun _ _ => .pure

private theorem extendAll_guarded {good : Pointer → Prop} {tokens : List String} {pointer : Pointer}
    (step : ∀ parent token, good parent → (extend { registry, memory } whole dashAllowed parent token).Guarded fine)
    (kept : ∀ parent token child, good parent →
      (extend { registry, memory } whole dashAllowed parent token).outcome = .ok child → good child)
    (start : good pointer) : (tokens.foldlM (extend { registry, memory } whole dashAllowed) pointer).Guarded fine := by
  induction tokens generalizing pointer with
  | nil => exact .pure
  | cons token rest ih =>
    rw [List.foldlM_cons]
    exact .bind (step pointer token start) fun child extended => ih (kept pointer token child start extended)

/-- What holds of the root pointer and is kept by every step guards all of parsing. -/
theorem parse_guarded (good : Pointer → Prop) {given : Value} (start : good (.root container))
    (step : ∀ parent token, good parent → (extend { registry, memory } given dashAllowed parent token).Guarded fine)
    (kept : ∀ parent token child, good parent →
      (extend { registry, memory } given dashAllowed parent token).outcome = .ok child → good child) :
    (parse { registry, memory } container dashAllowed given).Guarded fine := by
  unfold parse
  split
  · split
    · exact .refused
    · split
      · exact .refused
      · exact extendAll_guarded step kept start
  · exact .refused

end Pointer
end RecordAddress
