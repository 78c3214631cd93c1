import RecordAddress.Proofs.Chains

/-! Parsing at once and step by step. A pointer that is held is met again when its text is parsed, so that
extending it by a token comes to the same as parsing its text with the token at the end. -/

namespace RecordAddress
variable {registry : Registry} {memory : Memory} {container : Container} {schema : Schema} {place : Place}

/-- The root container of a schema, as it was opened at some time and is remembered since. -/
def Container.RootOf (schema : Schema) (memory : Memory) (container : Container) : Prop :=
  ∃ (registry : Registry) (former : Memory), former.Lasting ∧
    ({ registry, memory := former } : Context).root schema = .ok container ∧ (former.remember container).Grows memory

theorem Container.RootOf.stays (isRoot : container.RootOf schema memory) (registry : Registry) :
    ({ registry, memory } : Context).root schema = .ok container := by
  obtain ⟨_, former, lasting, opened, remembered⟩ := isRoot
  obtain ⟨-, -, found⟩ := Context.root_eq_ok.mp opened
  obtain ⟨-, admits⟩ := Context.opens_of_opener lasting found
  exact Context.root_again lasting opened ((lasting.holds_remember admits).mono remembered)

theorem Container.RootOf.described (isRoot : container.RootOf schema memory) : container.Described := by
  obtain ⟨_, former, lasting, opened, -⟩ := isRoot
  obtain ⟨-, -, found⟩ := Context.root_eq_ok.mp opened
  obtain ⟨⟨origin, opens⟩, -⟩ := Context.opens_of_opener lasting found
  exact ⟨origin, _, opens⟩

theorem Container.RootOf.mono {later : Memory} (isRoot : container.RootOf schema memory) (grows : memory.Grows later) :
    container.RootOf schema later := by
  obtain ⟨registry, former, lasting, opened, remembered⟩ := isRoot
  exact ⟨registry, former, lasting, opened, remembered.trans grows⟩

/-- A root container is remembered once it was opened. -/
theorem Container.RootOf.opened (opened : ({ registry } : Context).root schema = .ok container) :
    (Memory.remember {} container).Lasting ∧ container.RootOf schema (Memory.remember {} container) := by
  obtain ⟨-, -, found⟩ := Context.root_eq_ok.mp opened
  obtain ⟨⟨origin, opens⟩, -⟩ := Context.opens_of_opener Memory.lasting_of_empty found
  exact ⟨Memory.lasting_of_empty.remember ⟨origin, _, opens⟩, registry, {}, Memory.lasting_of_empty, opened, .refl _⟩

namespace Pointer
variable {pointer parent child last : Pointer} {token : String} {whole : Value} {dashAllowed : Bool}
  {opened : List Container} {tokens : List String}

theorem tokens_of_extend {context : Context}
    (extended : (extend context whole dashAllowed parent token).outcome = .ok child) :
    child.tokens = parent.tokens ++ [token] := by
  rcases extend_eq_ok.mp extended with ⟨_, -, -, rfl⟩ | ⟨-, rfl⟩ | ⟨_, _, _, -, -, rfl⟩ <;> rfl

theorem extendAll_snoc {context : Context} :
    ((tokens ++ [token]).foldlM (extend context whole dashAllowed) pointer).outcome =
      ((tokens.foldlM (extend context whole dashAllowed) pointer).outcome >>= fun above =>
        (extend context whole dashAllowed above token).outcome) := by
  induction tokens generalizing pointer with
  | nil =>
    simp only [List.nil_append, List.foldlM_cons, List.foldlM_nil, Opening.outcome_bind, Opening.outcome_pure]
    exact bind_pure _
  | cons first rest ih => simp only [List.cons_append, List.foldlM_cons, Opening.outcome_bind, ih, bind_assoc]

/-- A pointer whose way down from the root can be gone again: all that was opened for it is held. -/
inductive Firm (container : Container) (memory : Memory) : Pointer → Prop
  | root : Firm container memory (.root container)
  | step {registry : Registry} {former : Memory} {dashAllowed : Bool} {parent child : Pointer} {token : String}
      {opened : List Container} : Firm container memory parent → parent.Sturdy → former.Lasting →
      Step registry former dashAllowed parent token child opened → (∀ inner ∈ opened, memory.Holds inner) →
      Firm container memory child

private theorem Firm.extendAll {former : Memory} (firm : Firm container memory pointer) (lasting : former.Lasting)
    (sturdy : pointer.Sturdy)
    (extended : tokens.foldlM (extend { registry, memory := former } whole dashAllowed) pointer = ⟨opened, .ok last⟩)
    (holds : ∀ inner ∈ opened, memory.Holds inner) : Firm container memory last := by
  induction tokens generalizing pointer opened with
  | nil =>
    obtain ⟨-, rfl⟩ := Opening.pure_eq.mp extended
    exact firm
  | cons token rest ih =>
    rw [List.foldlM_cons, Opening.bind_eq] at extended
    obtain ⟨child, first, others, stepped, further, rfl⟩ := extended
    obtain ⟨held, lower⟩ := List.forall_mem_append.mp holds
    have step := extend_eq_step.mp stepped
    exact ih (.step firm sturdy lasting step held) (step.sturdy lasting sturdy) further lower

theorem Held.firm (opens : container.Opens schema place) (held : Held container memory pointer) :
    Firm container memory pointer := by
  induction held with
  | parsed lasting parsed remembered =>
    obtain ⟨_, extended⟩ := tokens_of_parse parsed
    obtain ⟨-, between⟩ := extendAll_sturdy lasting (.root opens) extended
    exact Firm.root.extendAll lasting (.root opens) extended fun inner within =>
      (between.holds lasting inner within).mono remembered
  | child lasting above made remembered ih =>
    have sturdy := above.sturdy opens
    have step := step_of_extend made
    exact .step ih sturdy lasting step fun inner within =>
      ((step.between lasting sturdy).holds lasting inner within).mono remembered

/-- The tokens of a pointer lead to it again, unless it is a dash and dashes are not allowed. -/
theorem Firm.again (firm : Firm container memory pointer) (registry : Registry) (whole : Value)
    (dash : pointer.isDash = true → dashAllowed = true) :
    (pointer.tokens.foldlM (extend { registry, memory } whole dashAllowed) (.root container)).outcome = .ok pointer := by
  induction firm with
  | root => rfl
  | @step _ _ _ parent child token _ _ sturdy lasting step holds ih =>
    obtain ⟨-, -, noDash⟩ := step.parent_eq
    have above := ih (by simp [noDash])
    have here : (extend { registry, memory } whole dashAllowed parent token).outcome = .ok child := by
      rw [extend_eq_step.mpr (step.again lasting sturdy dash holds)]
    rw [tokens_of_extend here, extendAll_snoc, above]
    exact here

/-- Where dashes are not allowed, the tokens of a dash lead nowhere. -/
theorem Firm.dash_refused (firm : Firm container memory pointer) (dash : pointer.isDash = true) (registry : Registry)
    (whole : Value) (other : Pointer) :
    (pointer.tokens.foldlM (extend { registry, memory } whole false) (.root container)).outcome ≠ .ok other := by
  cases firm with
  | root => cases dash
  | @step _ _ _ parent _ token _ above _ _ step _ =>
    obtain ⟨-, -, noDash⟩ := step.parent_eq
    cases step with
    | entry | property => cases dash
    | @position index awaited read =>
      have afterLast : index = .afterLast := by
        cases index with
        | position => cases dash
        | afterLast => rfl
      subst afterLast
      obtain ⟨rfl, -⟩ : token = "-" ∧ _ = true := by simpa using ArrayIndex.ofText_eq_ok.mp read
      have again : (parent.tokens.foldlM (extend { registry, memory } whole false) (.root container)).outcome =
          .ok parent := above.again registry whole (by simp [noDash])
      rw [tokens, extendAll_snoc, again]
      intro extended
      obtain ⟨opened, step⟩ : ∃ opened, Step registry memory false parent "-" other opened := ⟨_, step_of_extend extended⟩
      cases step with
      | position _ read => simp [ArrayIndex.ofText] at read
      | entry map => cases awaited.symm.trans map
      | property object => cases awaited.symm.trans object

theorem text_eq_join (pointer : Pointer) : pointer.text = Token.join pointer.tokens := by
  induction pointer with
  | root => rfl
  | property parent token _ _ ih | element parent token _ ih => simp only [text, tokens, Token.join_snoc, ih]

/-- Extending a pointer by one token after the other. What is opened for one of them is remembered for the next. -/
def divideAll (registry : Registry) (memory : Memory) (pointer : Pointer) : List String → Except Fault Pointer
  | [] => .ok pointer
  | token :: rest => do
    let division := pointer.child { registry, memory } true token
    divideAll registry (memory.rememberAll division.opened) (← division.outcome) rest

private theorem divideAll_cons :
    divideAll registry memory pointer (token :: tokens) = .ok last ↔
      ∃ child opened, Step registry memory true pointer token child opened ∧
        divideAll registry (memory.rememberAll opened) child tokens = .ok last := by
  rw [divideAll, bind_eq_ok]
  constructor
  · rintro ⟨child, made, further⟩
    exact ⟨child, _, step_of_extend made, further⟩
  · rintro ⟨child, opened, step, further⟩
    have made : pointer.child { registry, memory } true token = ⟨opened, .ok child⟩ := extend_eq_step.mpr step
    exact ⟨child, by rw [made], by rw [made]; exact further⟩

private theorem extendAll_cons :
    ((token :: tokens).foldlM (extend { registry, memory } whole dashAllowed) pointer).outcome = .ok last ↔
      ∃ child opened, Step registry memory dashAllowed pointer token child opened ∧
        (tokens.foldlM (extend { registry, memory } whole dashAllowed) child).outcome = .ok last := by
  rw [List.foldlM_cons, Opening.outcome_bind, bind_eq_ok]
  constructor
  · rintro ⟨child, made, further⟩
    exact ⟨child, _, step_of_extend made, further⟩
  · rintro ⟨child, opened, step, further⟩
    exact ⟨child, by rw [extend_eq_step.mpr step], further⟩

/-- What was opened above a pointer makes no difference to what is opened below it. -/
theorem divideAll_eq_extendAll {later : Memory} (lasting : memory.Lasting) (laterLasting : later.Lasting)
    (sturdy : pointer.Sturdy) (agrees : ∀ outer ∈ pointer.children?, memory.AgreesBelow outer.depth later) :
    divideAll registry later pointer tokens = .ok last ↔
      (tokens.foldlM (extend { registry, memory } whole true) pointer).outcome = .ok last := by
  induction tokens generalizing pointer later with
  | nil => exact Iff.rfl
  | cons token rest ih =>
    -- the memories differ by what was opened above the pointer, which no step looks at
    have same : ∀ child opened, Step registry later true pointer token child opened ↔
        Step registry memory true pointer token child opened := by
      intro child opened
      have back := fun outer within => (agrees outer within).symm
      exact ⟨Step.of_agree laterLasting sturdy back, Step.of_agree lasting sturdy agrees⟩
    rw [divideAll_cons, extendAll_cons]
    simp only [same]
    refine exists_congr fun child => exists_congr fun opened => and_congr_right fun step => ?_
    have between := step.between lasting sturdy
    exact ih (laterLasting.rememberAll between.described) (step.sturdy lasting sturdy) (between.agrees agrees)

/-- Extending a pointer by a token comes to the same as parsing its text with the token at the end, whatever was
opened or registered since the pointer was obtained. So a text is parsed to what the root pointer becomes when it
is extended by the tokens, one after the other. -/
theorem stepwise_parsing_agrees (lasting : memory.Lasting) (isRoot : container.RootOf schema memory)
    (held : Held container memory pointer) (registry : Registry) (dashAllowed : Bool) :
    ({ registry, memory } : Context).root schema = .ok container ∧
    (∀ token child, (pointer.child { registry, memory } dashAllowed token).outcome = .ok child ↔
      (parse { registry, memory } container dashAllowed (.text (pointer.text ++ "/" ++ Token.escape token))).outcome =
        .ok child) ∧
    (∀ text tokens, Token.split text = .ok tokens → ∀ last,
      (parse { registry, memory } container true (.text text)).outcome = .ok last ↔
        divideAll registry memory (.root container) tokens = .ok last) := by
  obtain ⟨_, _, opens⟩ := isRoot.described
  refine ⟨isRoot.stays registry, ?_, ?_⟩
  · intro token child
    have joined : pointer.text ++ "/" ++ Token.escape token = Token.join (pointer.tokens ++ [token]) := by
      rw [Token.join_snoc, text_eq_join]
    rw [joined, parse_of_join, extendAll_snoc, ← joined]
    by_cases dash : pointer.isDash = true → dashAllowed = true
    · rw [(held.firm opens).again registry _ dash]
      exact Iff.rfl
    · -- nothing can be below a dash, and its own text is refused where dashes are
      obtain ⟨isDash, forbidden⟩ := Classical.not_imp.mp dash
      obtain rfl := Bool.eq_false_iff.mpr forbidden
      constructor
      · intro made
        obtain ⟨-, -, noDash⟩ := parent_of_extend made
        cases isDash.symm.trans noDash
      · intro extended
        obtain ⟨above, reached, -⟩ := bind_eq_ok.mp extended
        exact absurd reached ((held.firm opens).dash_refused isDash registry _ above)
  · intro text tokens pieces last
    rw [parse_of_split pieces]
    have itself : ∀ outer ∈ (Pointer.root container).children?, memory.AgreesBelow outer.depth memory :=
      fun outer _ => .refl outer.depth memory
    exact (divideAll_eq_extendAll lasting lasting (.root opens) itself).symm

theorem note_is_parsed_stepwise :
    let memory := Memory.remember {} Orders.container
    let context : Context := { registry := Orders.registry, memory }
    memory.Lasting ∧ Orders.container.RootOf Orders.order memory ∧
    ∃ notes note, (parse context Orders.container true (.text "/notes")).outcome = .ok notes ∧
      Held Orders.container memory notes ∧ (notes.child context false "a/b").outcome = .ok note ∧
      (parse context Orders.container false (.text "/notes/a~1b")).outcome = .ok note := by
  intro memory context
  have root : ({ registry := Orders.registry } : Context).root Orders.order = .ok Orders.container := rfl
  obtain ⟨lasting, isRoot⟩ := Container.RootOf.opened root
  obtain ⟨notes, parsed, nothing, text, note, made⟩ : ∃ notes,
      (parse context Orders.container true (.text "/notes")).outcome = .ok notes ∧
      (parse context Orders.container true (.text "/notes")).opened = [] ∧
      notes.text ++ "/" ++ Token.escape "a/b" = "/notes/a~1b" ∧
      ∃ note, (notes.child context false "a/b").outcome = .ok note := ⟨_, rfl, rfl, rfl, _, rfl⟩
  have held : Held Orders.container memory notes := .parsed lasting parsed (by rw [nothing]; exact .refl _)
  have agrees := ((stepwise_parsing_agrees lasting isRoot held Orders.registry false).2.1 "a/b" note).mp made
  rw [text] at agrees
  exact ⟨lasting, isRoot, notes, note, parsed, held, made, agrees⟩

end Pointer
end RecordAddress
