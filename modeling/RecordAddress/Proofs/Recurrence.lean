import RecordAddress.Proofs.Chains

/-! Parsing the same once more. What was opened for it is met again, and where nothing could be opened, nothing can be
opened the next time. So it leads to the same pointer again, or fails in the same way. -/

namespace RecordAddress
variable {registry : Registry} {memory later : Memory} {container : Container} {schema : Schema} {place : Place}
  {depth : Nat}

namespace Opening
variable {ε δ α β : Type}

/-- An opening that comes to the same once what it opened is remembered, whatever else is by then at places that are
no deeper. If it fails, nothing may have been opened at deeper places than its own since. -/
structure Recurs (memory : Memory) (depth : Nat) (run : Memory → Opening ε α) : Prop where
  described : ∀ inner ∈ (run memory).opened, inner.Described
  admits : ∀ inner ∈ (run memory).opened, memory.Admits inner
  below : ∀ inner ∈ (run memory).opened, depth < inner.depth
  descends : (run memory).opened.Pairwise fun outer inner => outer.depth < inner.depth
  again : ∀ later : Memory, (∀ inner ∈ (run memory).opened, later.Holds inner) →
    (∀ fault, (run memory).outcome = .error fault → ∀ place : Place, depth < place.depth →
      (∀ inner ∈ (run memory).opened, inner.depth < place.depth) → memory.known? place = later.known? place) →
    run later = run memory

namespace Recurs

/-- What does not look at the memory. -/
theorem fixed {run : Memory → Opening ε α} (nothing : (run memory).opened = []) (same : ∀ later, run later = run memory) :
    Recurs memory depth run where
  described := by simp [nothing]
  admits := by simp [nothing]
  below := by simp [nothing]
  descends := by simp [nothing]
  again := fun later _ _ => same later

theorem mono {run : Memory → Opening ε α} {shallower : Nat} (recurs : Recurs memory depth run)
    (above : shallower ≤ depth) : Recurs memory shallower run where
  described := recurs.described
  admits := recurs.admits
  below := fun inner within => Nat.lt_of_le_of_lt above (recurs.below inner within)
  descends := recurs.descends
  again := by
    intro later holds vacant
    refine recurs.again later holds fun fault failed place deeper => ?_
    exact vacant fault failed place (Nat.lt_of_le_of_lt above deeper)

theorem bind {first : Memory → Opening ε α} {next : α → Memory → Opening ε β} (recurs : Recurs memory depth first)
    (further : ∀ value, (first memory).outcome = .ok value → ∃ deeper, depth ≤ deeper ∧
      (∀ inner ∈ (first memory).opened, inner.depth ≤ deeper) ∧ Recurs memory deeper (next value)) :
    Recurs memory depth fun memory => first memory >>= fun value => next value memory := by
  cases outcome : (first memory).outcome with
  | error fault =>
    have whole : (first memory >>= fun value => next value memory) = ⟨(first memory).opened, .error fault⟩ :=
      bind_of_error _ outcome
    refine ⟨?_, ?_, ?_, ?_, ?_⟩ <;> simp only [whole]
    · exact recurs.described
    · exact recurs.admits
    · exact recurs.below
    · exact recurs.descends
    · intro later holds vacant
      have same := recurs.again later holds fun other failed => vacant fault rfl
      rw [same]
      exact bind_of_error _ outcome
  | ok value =>
    obtain ⟨deeper, above, inside, recursNext⟩ := further value outcome
    have whole : (first memory >>= fun value => next value memory) =
        ⟨(first memory).opened ++ (next value memory).opened, (next value memory).outcome⟩ := bind_of_ok _ outcome
    refine ⟨?_, ?_, ?_, ?_, ?_⟩ <;> simp only [whole]
    · exact List.forall_mem_append.mpr ⟨recurs.described, recursNext.described⟩
    · exact List.forall_mem_append.mpr ⟨recurs.admits, recursNext.admits⟩
    · refine List.forall_mem_append.mpr ⟨recurs.below, fun inner within => ?_⟩
      exact Nat.lt_of_le_of_lt above (recursNext.below inner within)
    · refine List.pairwise_append.mpr ⟨recurs.descends, recursNext.descends, fun outer before inner after => ?_⟩
      exact Nat.lt_of_le_of_lt (inside outer before) (recursNext.below inner after)
    · intro later holds vacant
      obtain ⟨holdsFirst, holdsNext⟩ := List.forall_mem_append.mp holds
      have same := recurs.again later holdsFirst fun fault failed => by cases outcome.symm.trans failed
      have sameNext := recursNext.again later holdsNext fun fault failed place lower beyond => by
        refine vacant fault failed place (Nat.lt_of_le_of_lt above lower) (List.forall_mem_append.mpr ⟨?_, beyond⟩)
        exact fun inner before => Nat.lt_of_le_of_lt (inside inner before) lower
      rw [same, bind_of_ok _ outcome, sameNext]

/-- What is done first need not look at the memory. -/
theorem afterwards {first : Memory → Opening ε α} {next : α → Memory → Opening ε β}
    (nothing : (first memory).opened = []) (same : ∀ later, first later = first memory)
    (further : ∀ value, (first memory).outcome = .ok value → Recurs memory depth (next value)) :
    Recurs memory depth fun memory => first memory >>= fun value => next value memory :=
  (fixed nothing same).bind fun value reached => ⟨depth, Nat.le_refl _, by simp [nothing], further value reached⟩

theorem exists_depth (depth : Nat) (containers : List Container) :
    ∃ deeper, depth ≤ deeper ∧ ∀ inner ∈ containers, inner.depth ≤ deeper := by
  induction containers with
  | nil => exact ⟨depth, Nat.le_refl _, nofun⟩
  | cons inner rest ih =>
    obtain ⟨deeper, above, inside⟩ := ih
    refine ⟨max inner.depth deeper, Nat.le_trans above (Nat.le_max_right _ _), ?_⟩
    refine List.forall_mem_cons.mpr ⟨Nat.le_max_left _ _, fun other within => ?_⟩
    exact Nat.le_trans (inside other within) (Nat.le_max_right _ _)

/-- Nor need what is done afterwards. -/
theorem andThen {first : Memory → Opening ε α} {next : α → Memory → Opening ε β} (recurs : Recurs memory depth first)
    (nothing : ∀ value, (next value memory).opened = []) (same : ∀ value later, next value later = next value memory) :
    Recurs memory depth fun memory => first memory >>= fun value => next value memory := by
  obtain ⟨deeper, above, inside⟩ := exists_depth depth (first memory).opened
  exact recurs.bind fun value _ => ⟨deeper, above, inside, .fixed (nothing value) (same value)⟩

/-- What is nested in a property that stands at a place. -/
theorem nested {property : Property} (failure : Container.Fault → ε) (lasting : memory.Lasting)
    (standing : property.place = some place) (deeper : depth < place.depth) :
    Recurs memory depth fun memory => (({ registry, memory } : Context).nestedOpening property).mapError failure := by
  cases outcome : ({ registry, memory } : Context).nested property with
  | error fault =>
    have whole : (({ registry, memory } : Context).nestedOpening property).mapError failure = ⟨[], .error (failure fault)⟩ := by
      simp only [Context.nestedOpening, outcome]
      rfl
    refine ⟨?_, ?_, ?_, ?_, ?_⟩ <;> simp only [whole]
    · exact List.forall_mem_nil _
    · exact List.forall_mem_nil _
    · exact List.forall_mem_nil _
    · exact .nil
    · intro later _ vacant
      -- nothing was opened, so that the place of the property itself is as vacant as it was
      have same := vacant _ rfl place deeper (List.forall_mem_nil _)
      rw [← whole, Context.nestedOpening, Context.nestedOpening, Context.nested_of_known standing same]
  | ok children =>
    obtain ⟨-, inside⟩ := Context.opens_of_nested lasting standing outcome
    have whole : (({ registry, memory } : Context).nestedOpening property).mapError failure = ⟨children.toList, .ok children⟩ := by
      simp only [Context.nestedOpening, outcome]
      cases children <;> rfl
    have each : ∀ inner ∈ children.toList, (∃ schema, inner.Opens schema place) ∧ memory.Admits inner :=
      fun inner within => inside inner (Option.mem_toList.mp within)
    refine ⟨?_, ?_, ?_, ?_, ?_⟩ <;> simp only [whole]
    · intro inner within
      obtain ⟨⟨schema, opens⟩, -⟩ := each inner within
      exact ⟨schema, place, opens⟩
    · exact fun inner within => (each inner within).2
    · intro inner within
      obtain ⟨⟨schema, opens⟩, -⟩ := each inner within
      rw [opens.depth_eq]
      exact deeper
    · cases children with
      | none => exact .nil
      | some inner => exact List.pairwise_singleton _ _
    · intro later holds _
      have again : ({ registry, memory := later } : Context).nested property = .ok children :=
        Context.nested_again lasting standing outcome fun inner within => holds inner (Option.mem_toList.mpr within)
      rw [← whole, Context.nestedOpening, Context.nestedOpening, outcome, again]

end Recurs
end Opening
namespace Pointer
variable {token : String} {parent : Pointer} {whole : Value} {dashAllowed : Bool}

open Opening

private theorem specific?_recurs (lasting : memory.Lasting) (opens : container.Opens schema place)
    (polymorphic : container.isPolymorphic = true) (subtype name : String) :
    Recurs memory container.depth fun memory => specific? { registry, memory } container subtype name := by
  unfold specific?
  refine .afterwards rfl (fun _ => rfl) fun found has => ?_
  cases found with
  | none => exact .fixed rfl fun _ => rfl
  | some property =>
    have listed : container.at? (.subtype subtype) = some property := by simpa [Container.at?, polymorphic] using has
    have deeper : container.depth < (place.below (.subtype subtype)).depth := by simp [opens.depth_eq, Place.below]
    have opening : Recurs memory container.depth fun memory =>
        (({ registry, memory } : Context).nestedOpening property).mapError Fault.container :=
      .nested Fault.container lasting (opens.place_of_at? listed) deeper
    refine .andThen opening ?_ ?_
    · intro nested
      cases nested with
      | none => rfl
      | some specific =>
        simp only [Amendments.property?_unchanged]
        rfl
    · intro nested later
      cases nested <;> rfl

theorem lookUp_recurs (lasting : memory.Lasting) (opens : container.Opens schema place) (token : String) :
    Recurs memory container.depth fun memory => lookUp { registry, memory } container token := by
  rcases plain_or_specific container token with plain | ⟨subtype, name, property, parts, listed⟩
  · refine .fixed ?_ fun later => ?_
    · rw [lookUp_of_plain plain]
    · rw [lookUp_of_plain plain, lookUp_of_plain plain]
  · obtain ⟨polymorphic, -⟩ := opens.listed_of_subtype? listed
    unfold lookUp
    simp only [parts, Amendments.isPolymorphic_unchanged, polymorphic, Value.isTruthy, ite_true]
    refine .andThen (specific?_recurs lasting opens polymorphic subtype name) ?_ ?_
    · intro found
      cases found with
      | none =>
        simp only [Amendments.property?_unchanged]
        rfl
      | some => rfl
    · intro found later
      cases found <;> rfl

theorem extend_recurs (lasting : memory.Lasting) (sturdy : parent.Sturdy)
    (above : ∀ outer ∈ parent.children?, depth ≤ outer.depth) (whole : Value) (dashAllowed : Bool) (token : String) :
    Recurs memory depth fun memory => extend { registry, memory } whole dashAllowed parent token := by
  cases next : parent.next {} with
  | nothing | scalar | unopened | mapKey =>
    simp only [extend, next]
    exact .fixed rfl fun _ => rfl
  | arrayIndex =>
    simp only [extend, next]
    cases ArrayIndex.ofText dashAllowed token with
    | ok index => exact .fixed rfl fun _ => rfl
    | error fault => cases fault <;> exact .fixed rfl fun _ => rfl
  | property container =>
    obtain ⟨has, _, _, opens⟩ := sturdy.at_hand next
    refine .mono ?_ (above container has)
    simp only [extend, next]
    refine .afterwards rfl (fun _ => rfl) fun tells _ => ?_
    cases tells with
    | true =>
      simp only [ite_true]
      exact .afterwards rfl (fun _ => rfl) fun _ _ => .afterwards rfl (fun _ => rfl) fun _ _ => .fixed rfl fun _ => rfl
    | false =>
      simp only [Bool.false_eq_true, ite_false]
      refine .bind (lookUp_recurs lasting opens token) fun found looked => ?_
      cases found with
      | none =>
        obtain ⟨deeper, below, inside⟩ := Recurs.exists_depth container.depth
          (lookUp { registry, memory } container token).opened
        exact ⟨deeper, below, inside, .fixed rfl fun _ => rfl⟩
      | some target =>
        obtain ⟨deeper, below, inside, there, standing, further⟩ := standing_of_lookUp lasting opens looked
        refine ⟨deeper, below, inside, .afterwards rfl (fun _ => rfl) fun located _ => ?_⟩
        exact .andThen (.nested Fault.container lasting standing further) (fun _ => rfl) fun _ _ => rfl

theorem extendAll_recurs {pointer : Pointer} (lasting : memory.Lasting) (sturdy : pointer.Sturdy)
    (above : ∀ outer ∈ pointer.children?, depth ≤ outer.depth) (whole : Value) (dashAllowed : Bool) (tokens : List String) :
    Recurs memory depth fun memory => tokens.foldlM (extend { registry, memory } whole dashAllowed) pointer := by
  induction tokens generalizing pointer depth with
  | nil =>
    simp only [List.foldlM_nil]
    exact .fixed rfl fun _ => rfl
  | cons token rest ih =>
    simp only [List.foldlM_cons]
    refine .bind (extend_recurs lasting sturdy above whole dashAllowed token) fun child extended => ?_
    have step := step_of_extend extended
    have lower := step.sturdy lasting sturdy
    have between := step.between lasting sturdy
    unfold Between at between
    split at between
    · obtain ⟨nothing, noChildren⟩ := between
      refine ⟨depth, Nat.le_refl _, by simp [nothing], ih lower ?_⟩
      simp [noChildren]
    next outer has =>
      -- the rest is looked for below the last container, which is the deepest one so far
      obtain ⟨last, descends, same⟩ := between
      have upper := Nat.le_trans (above outer has) descends.depth_le
      refine ⟨last.depth, upper, fun inner opened => (descends.between inner opened).2, ih lower ?_⟩
      intro inner within
      rw [same inner within]

theorem parse_recurs (lasting : memory.Lasting) (opens : container.Opens schema place) (dashAllowed : Bool) (given : Value) :
    Recurs memory container.depth fun memory => parse { registry, memory } container dashAllowed given := by
  unfold parse
  cases given with
  | text text =>
    simp only
    split
    · exact .fixed rfl fun _ => rfl
    · cases Token.split text with
      | error fault => exact .fixed rfl fun _ => rfl
      | ok tokens =>
        refine extendAll_recurs lasting (.root opens) ?_ (.text text) dashAllowed tokens
        intro outer itself
        exact Nat.le_of_eq (congrArg Container.depth (Option.some.inj itself))
  | _ => exact .fixed rfl fun _ => rfl

end Pointer

namespace Opening.Recurs
variable {ε α : Type} {run : Memory → Opening ε α}

/-- Once what was opened is remembered, the same is opened again, and comes to the same. -/
theorem again_after (recurs : Recurs memory depth run) (lasting : memory.Lasting) {above : List Container}
    (shallow : ∀ outer ∈ above, outer.depth ≤ depth) :
    run ((memory.rememberAll (run memory).opened).rememberAll above) = run memory := by
  have holds := lasting.holds_rememberAll recurs.described recurs.admits recurs.descends
  refine recurs.again _ ?_ ?_
  · exact fun inner within => (holds inner within).mono (Memory.grows_rememberAll _ above)
  · intro fault _ there deeper beyond
    have agrees : memory.AgreesBelow (there.depth - 1) ((memory.rememberAll (run memory).opened).rememberAll above) := by
      rw [← Memory.rememberAll_append]
      refine Memory.agreesBelow_rememberAll memory (List.forall_mem_append.mpr ⟨?_, ?_⟩)
      · exact fun inner within => Nat.le_pred_of_lt (beyond inner within)
      · exact fun outer within => Nat.le_pred_of_lt (Nat.lt_of_le_of_lt (shallow outer within) deeper)
    exact agrees there (by omega)

end Opening.Recurs
end RecordAddress
