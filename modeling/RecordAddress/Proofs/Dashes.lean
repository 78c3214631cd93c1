import RecordAddress.Proofs.Ancestry

/-! Parsing with and without dashes. Whether dashes are allowed makes no difference to a token but the dash itself, where
an array index is awaited, and no token can follow that one. So what is refused for the sake of dashes are the pointers
that end in one, and all else comes to the same. -/

namespace RecordAddress

namespace ArrayIndex

theorem ofText_of_other {token : String} (other : token ≠ "-") : ofText false token = ofText true token := by
  rw [ofText, ofText, if_neg other, if_neg other]

end ArrayIndex

namespace Pointer
variable {context : Context} {container : Container} {whole given : Value} {pointer parent child last : Pointer} {token : String}
  {tokens : List String} {dashAllowed : Bool}

/-- A strict opening gives what a lenient one gives, and opens what that opens, but gives no dash. -/
structure DropsDashes (amendments : Amendments) (strict lenient : Opening Fault Pointer) : Prop where
  accepts : ∀ pointer, strict.outcome = .ok pointer ↔ lenient.outcome = .ok pointer ∧ amendments.isDash pointer = false
  same : ∀ pointer, strict.outcome = .ok pointer → strict = lenient

/-- Nothing follows a dash. -/
theorem next_of_dash (dash : context.amendments.isDash pointer = true) : pointer.next context.amendments = .nothing := by
  cases pointer with
  | root | property => cases dash
  | element above name index => rw [next, if_pos dash]

theorem dash_below_array (awaited : parent.next context.amendments = .arrayIndex) :
    context.amendments.isDash (.element parent token .afterLast) = true := by
  obtain ⟨above, name, target, children, rfl, isArray⟩ := @collection_of_awaited parent context.amendments .array awaited
  have still : (context.amendments.find? target Amendments.collectionKey).isSome = false := by
    cases set : context.amendments.find? target Amendments.collectionKey with
    | none => rfl
    | some => simp [Amendments.collection?, set] at isArray
  simp [Amendments.isDash, isDash, index?, Amendments.isStray, property?, still]

/-- Whether dashes are allowed only matters to a dash where an array index is awaited. -/
theorem extend_of_other (other : parent.next context.amendments = .arrayIndex → token ≠ "-") :
    extend context whole false parent token = extend context whole true parent token := by
  unfold extend
  cases awaited : parent.next context.amendments with
  | arrayIndex => simp only [ArrayIndex.ofText_of_other (other awaited)]
  | nothing | mapKey | scalar | unopened | property => rfl

theorem no_dash_of_other (other : parent.next context.amendments = .arrayIndex → token ≠ "-")
    (made : (extend context whole dashAllowed parent token).outcome = .ok child) :
    context.amendments.isDash child = false := by
  rcases extend_eq_ok.mp made with ⟨index, awaited, read, rfl⟩ | ⟨-, rfl⟩ | ⟨_, _, _, -, -, rfl⟩
  · cases index with
    | position index => rfl
    | afterLast =>
      obtain ⟨rfl, -⟩ : token = "-" ∧ dashAllowed = true := by simpa using ArrayIndex.ofText_eq_ok.mp read
      exact absurd rfl (other awaited)
  · rfl
  · rfl

/-- What a token extends a pointer to where dashes are not allowed is what it extends it to where they are, unless that is
a dash. -/
theorem extend_without_dashes :
    (extend context whole false parent token).outcome = .ok child ↔
      (extend context whole true parent token).outcome = .ok child ∧ context.amendments.isDash child = false := by
  by_cases dash : parent.next context.amendments = .arrayIndex ∧ token = "-"
  · obtain ⟨awaited, rfl⟩ := dash
    have refused : (extend context whole false parent "-").outcome ≠ .ok child := by
      simp [extend, awaited, ArrayIndex.ofText]
    have made : (extend context whole true parent "-").outcome = .ok (.element parent "-" .afterLast) := by
      simp [extend, awaited, ArrayIndex.ofText, ElementIndex.ofArray]
    refine iff_of_false refused ?_
    rintro ⟨other, noDash⟩
    obtain rfl := Except.ok.inj (made.symm.trans other)
    cases (dash_below_array awaited).symm.trans noDash
  · have other : parent.next context.amendments = .arrayIndex → token ≠ "-" := fun awaited same => dash ⟨awaited, same⟩
    rw [extend_of_other other]
    exact (and_iff_left_of_imp (no_dash_of_other other)).symm

theorem extend_same (made : (extend context whole false parent token).outcome = .ok child) :
    extend context whole false parent token = extend context whole true parent token := by
  apply extend_of_other
  rintro awaited rfl
  simp [extend, awaited, ArrayIndex.ofText] at made

/-- On the way to a pointer that is no dash there is none. -/
theorem extendAll_without_dashes :
    (tokens.foldlM (extend context whole false) (.root container)).outcome = .ok last ↔
      (tokens.foldlM (extend context whole true) (.root container)).outcome = .ok last ∧
        context.amendments.isDash last = false := by
  induction tokens using List.reverseRecOn generalizing last with
  | nil =>
    refine (and_iff_left_of_imp fun here => ?_).symm
    cases here
    rfl
  | append_singleton tokens token ih =>
    simp only [extendAll_snoc, bind_eq_ok, ih, extend_without_dashes]
    constructor
    · rintro ⟨above, ⟨reached, -⟩, made, noDash⟩
      exact ⟨⟨above, reached, made⟩, noDash⟩
    · rintro ⟨⟨above, reached, made⟩, noDash⟩
      refine ⟨above, ⟨reached, ?_⟩, made, noDash⟩
      cases dash : context.amendments.isDash above with
      | false => rfl
      | true =>
        unfold extend at made
        rw [next_of_dash dash] at made
        cases made

theorem extendAll_same (made : (tokens.foldlM (extend context whole false) parent).outcome = .ok last) :
    tokens.foldlM (extend context whole false) parent = tokens.foldlM (extend context whole true) parent := by
  induction tokens generalizing parent with
  | nil => rfl
  | cons token rest ih =>
    rw [List.foldlM_cons, Opening.outcome_bind, bind_eq_ok] at made
    obtain ⟨child, first, further⟩ := made
    have same := extend_same first
    rw [List.foldlM_cons, List.foldlM_cons, ← same, Opening.bind_of_ok _ first, Opening.bind_of_ok _ first, ih further]

theorem parse_without_dashes :
    (parse context container false given).outcome = .ok pointer ↔
      (parse context container true given).outcome = .ok pointer ∧ context.amendments.isDash pointer = false := by
  constructor
  · intro parsed
    obtain ⟨text, tokens, rfl, pieces⟩ := split_of_parse parsed
    rw [parse_of_split pieces] at parsed ⊢
    exact extendAll_without_dashes.mp parsed
  · rintro ⟨parsed, noDash⟩
    obtain ⟨text, tokens, rfl, pieces⟩ := split_of_parse parsed
    rw [parse_of_split pieces] at parsed ⊢
    exact extendAll_without_dashes.mpr ⟨parsed, noDash⟩

theorem parse_same (parsed : (parse context container false given).outcome = .ok pointer) :
    parse context container false given = parse context container true given := by
  obtain ⟨text, tokens, rfl, pieces⟩ := split_of_parse parsed
  rw [parse_of_split pieces] at parsed
  rw [parse_of_split pieces, parse_of_split pieces, extendAll_same parsed]

section Later
variable {registry : Registry} {memory later : Memory} {schema : Schema} {place : Place} {otherAllowed : Bool}

/-- A pointer is parsed again to what it was parsed to, unless dashes are not allowed any more and it is one. -/
theorem parse_later (lasting : memory.Lasting) (opens : container.Opens schema place)
    (parsed : (parse { registry, memory } container dashAllowed given).outcome = .ok pointer)
    (remembered : (memory.rememberAll (parse { registry, memory } container dashAllowed given).opened).Grows later)
    (allowed : pointer.isDash = true → otherAllowed = true) (present : Registry) :
    (parse { registry := present, memory := later } container otherAllowed given).outcome = .ok pointer := by
  have firm := (Held.parsed lasting parsed remembered).firm opens
  obtain ⟨text, tokens, rfl, pieces⟩ := split_of_parse parsed
  have again := firm.again present (.text text) allowed
  rw [parse_of_split pieces] at parsed ⊢
  rw [tokens_of_extendAll parsed] at again
  exact again

theorem child_later (lasting : memory.Lasting) (opens : container.Opens schema place) (held : Held container memory parent)
    (made : (parent.child { registry, memory } dashAllowed token).outcome = .ok child)
    (remembered : (memory.rememberAll (parent.child { registry, memory } dashAllowed token).opened).Grows later)
    (allowed : child.isDash = true → otherAllowed = true) (present : Registry) :
    (parent.child { registry := present, memory := later } otherAllowed token).outcome = .ok child := by
  have above := held.mono ((Memory.grows_rememberAll memory _).trans remembered)
  have again := ((Held.child lasting above made remembered).firm opens).again present
    (.text (parent.text ++ "/" ++ Token.escape token)) allowed
  obtain ⟨-, -, noDash⟩ := parent_of_extend made
  rw [tokens_of_extend made, extendAll_snoc, (above.firm opens).again present _ (by simp [noDash])] at again
  exact again

end Later

/-- Where dashes are not allowed, a text is parsed exactly if it is where they are and the pointer is no dash, and then it
is the same pointer, and the same is opened for it. Extending a pointer by a token comes to that as well. A dash may
still be the key of an entry, and be part of the name of a property. It does not matter which of the two is done first, nor
what is registered or opened in between. -/
theorem dashes_alone_are_refused (context : Context) :
    (∀ container given,
      DropsDashes context.amendments (parse context container false given) (parse context container true given)) ∧
    (∀ parent token,
      DropsDashes context.amendments (Pointer.child context false parent token) (Pointer.child context true parent token)) ∧
    (∀ parent dashAllowed, parent.next context.amendments = .mapKey →
      Pointer.child context dashAllowed parent "-" = pure (.element parent "-" (.key "-")) ∧
        context.amendments.isDash (.element parent "-" (.key "-")) = false) ∧
    (∀ parent container token, parent.next context.amendments = .property container →
      Pointer.child context false parent token = Pointer.child context true parent token) ∧
    (∀ memory container schema, memory.Lasting → container.RootOf schema memory →
      ∀ registry present later first second,
        (∀ given pointer, let opening := parse { registry, memory } container first given
          opening.outcome = .ok pointer → pointer.isDash = false → (memory.rememberAll opening.opened).Grows later →
          (parse { registry := present, memory := later } container second given).outcome = .ok pointer) ∧
        ∀ parent token child, Held container memory parent →
          let opening := Pointer.child { registry, memory } first parent token
          opening.outcome = .ok child → child.isDash = false → (memory.rememberAll opening.opened).Grows later →
          (Pointer.child { registry := present, memory := later } second parent token).outcome = .ok child) := by
  refine ⟨fun _ _ => ⟨fun _ => parse_without_dashes, fun _ => parse_same⟩,
    fun _ _ => ⟨fun _ => extend_without_dashes, fun _ => extend_same⟩, ?_, ?_, ?_⟩
  · intro parent dashAllowed awaited
    refine ⟨?_, rfl⟩
    unfold Pointer.child extend
    rw [awaited]
  · intro parent container token awaited
    exact extend_of_other fun array => nomatch awaited.symm.trans array
  · intro memory container schema lasting isRoot registry present later first second
    obtain ⟨_, _, opens⟩ := isRoot.described
    refine ⟨fun given pointer parsed noDash remembered => ?_, fun parent token child held made noDash remembered => ?_⟩
    · exact parse_later lasting opens parsed remembered (by simp [noDash]) present
    · exact child_later lasting opens held made remembered (by simp [noDash]) present

theorem dash_is_a_key_of_notes :
    let memory := Memory.remember {} Orders.container
    let context : Context := { registry := Orders.registry, memory }
    memory.Lasting ∧ Orders.container.RootOf Orders.order memory ∧
    ∃ notes note, (parse context Orders.container true (.text "/notes")).outcome = .ok notes ∧
      Held Orders.container memory notes ∧ notes.next {} = .mapKey ∧
      Pointer.child context false notes "-" = pure note ∧ context.amendments.isDash note = false ∧
      (Pointer.child context true notes "-").outcome = .ok note ∧
      (parse context Orders.container true (.text "/tags/-")).outcome = .ok Orders.nextTag ∧
      (parse context Orders.container false (.text "/tags/-")).outcome ≠ .ok Orders.nextTag := by
  intro memory context
  have root : ({ registry := Orders.registry } : Context).root Orders.order = .ok Orders.container := rfl
  obtain ⟨lasting, isRoot⟩ := Container.RootOf.opened root
  obtain ⟨notes, parsed, nothing, awaited⟩ : ∃ notes,
      (parse context Orders.container true (.text "/notes")).outcome = .ok notes ∧
      (parse context Orders.container true (.text "/notes")).opened = [] ∧ notes.next {} = .mapKey := ⟨_, rfl, rfl, rfl⟩
  have held : Held Orders.container memory notes := .parsed lasting parsed (by rw [nothing]; exact .refl _)
  obtain ⟨parses, -, keys, -, again⟩ := dashes_alone_are_refused context
  obtain ⟨made, noDash⟩ := keys notes false awaited
  have strict : (Pointer.child context false notes "-").outcome = .ok (.element notes "-" (.key "-")) := by rw [made]; rfl
  have lenient := (again memory Orders.container Orders.order lasting isRoot Orders.registry Orders.registry memory false
    true).2 notes "-" _ held strict rfl (by rw [made]; exact .refl _)
  have dash : (parse context Orders.container true (.text "/tags/-")).outcome = .ok Orders.nextTag := rfl
  exact ⟨lasting, isRoot, notes, _, parsed, held, awaited, made, noDash, lenient, dash,
    fun parsed => nomatch ((parses Orders.container (.text "/tags/-")).accepts _ |>.mp parsed).2⟩

end Pointer
end RecordAddress
