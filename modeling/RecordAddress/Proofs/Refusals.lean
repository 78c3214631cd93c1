import RecordAddress.Proofs.Stepwise

/-! Refusals of the parser. Whatever is no pointer is refused by a fault that names it as a whole. What is not
refused so are numbers of too many digits, after an array or in what is to be named, and containers that are open
at places where another class would be opened by now. -/

namespace RecordAddress

private theorem infix_of_append (before text after : String) : text.toList <:+: (before ++ text ++ after).toList := by
  simp only [String.toList_append, List.append_assoc]
  exact List.infix_append' _ _ _

theorem Malformed.message_names (malformed : Malformed) :
    malformed.name.toList <:+: malformed.message.toList := by
  unfold Malformed.message invalidPointerMessage
  rw [String.append_assoc]
  exact infix_of_append _ _ _

namespace Pointer

/-- What may come of parsing: a pointer, or a refusal that names the whole that was to be parsed. Three things are
not told of by a refusal: a number of too many digits among the tokens, a whole that cannot be named because of
such a number, and what is outdated among the containers that are open. -/
inductive Settled (outdated : Prop) (whole : Value) (tokens : List String) : Except Fault Pointer → Prop
  | found {pointer : Pointer} : Settled outdated whole tokens (.ok pointer)
  | refused {malformed : Malformed} {name : String} : malformed.pointer = whole → whole.display? = some name →
      name.toList <:+: malformed.message.toList → Settled outdated whole tokens (.error (.malformed malformed))
  | tooLong {token : String} : token ∈ tokens → ArrayIndex.isDecimal token.toList = true →
      ArrayIndex.digitLimit < token.toList.length → Settled outdated whole tokens (.error .tooManyDigits)
  | unnamed : whole.display? = none → Settled outdated whole tokens (.error .tooManyDigits)
  | outdated {fault : Container.Fault} : outdated → Settled outdated whole tokens (.error (.container fault))

variable {registry : Registry} {memory : Memory} {root schema : Schema} {container : Container} {place : Place}
  {pointer parent child : Pointer} {node : Node} {whole : Value} {tokens others : List String} {dashAllowed : Bool}
  {token : String} {outdated : Prop}

theorem Settled.of_reason (reason : Reason) : Settled outdated whole tokens (.error (refusal whole reason)) := by
  cases named : whole.display? with
  | some name =>
    rw [refusal_of_named named]
    have contained := Malformed.message_names { pointer := whole, reason, name, named }
    exact .refused rfl named contained
  | none =>
    rw [refusal_of_unnamed named]
    exact .unnamed named

theorem Settled.mono {outcome : Except Fault Pointer} (settled : Settled outdated whole tokens outcome)
    (within : tokens ⊆ others) : Settled outdated whole others outcome := by
  cases settled with
  | found => exact .found
  | refused same named contained => exact .refused same named contained
  | tooLong present decimal long => exact .tooLong (within present) decimal long
  | unnamed nameless => exact .unnamed nameless
  | outdated stale => exact .outdated stale

/-- Whether a container has a property for a token is always told, and what is nested in it can be opened. -/
theorem lookUp_tells (complete : root.Complete registry) (faithful : memory.Faithful registry root)
    (stands : Stands registry root place schema) (opens : container.Opens schema place) (token : String) :
    ∃ found, (lookUp { registry, memory } container token).outcome = .ok found ∧
      ∀ target, found = some target → ∃ children, ({ registry, memory } : Context).nested target = .ok children := by
  rcases plain_or_specific container token with plain | ⟨subtype, name, property, parts, found⟩
  · refine ⟨_, lookUp_plain plain, ?_⟩
    intro target found
    obtain ⟨children, _, opened, -⟩ := offers_of_property? complete faithful stands opens found
    exact ⟨children, opened⟩
  · obtain ⟨reference, listed, -⟩ := (opens.subtype?_eq (complete.wellNamed stands.reaches)).mp found
    obtain ⟨_, specific, inner, same, -, opened, below, inside⟩ :=
      subtype_opens complete faithful stands opens listed
    cases found.symm.trans same
    refine ⟨_, lookUp_specific parts (polymorphic_of_subtype opens listed) found opened, ?_⟩
    intro target has
    obtain ⟨children, _, opened, -⟩ := offers_of_property? complete faithful below inside has
    exact ⟨children, opened⟩

/-- What is nested in what a token stands for, or in a subtype on the way there, cannot be opened. -/
inductive Shut (registry : Registry) (memory : Memory) (container : Container) (token : String) :
    Container.Fault → Prop
  | ofSubtype {fault : Container.Fault} :
      (lookUp { registry, memory } container token).outcome = .error (.container fault) →
      Shut registry memory container token fault
  | inside {target : Property} {fault : Container.Fault} :
      (lookUp { registry, memory } container token).outcome = .ok (some target) →
      ({ registry, memory } : Context).nested target = .error fault → Shut registry memory container token fault

/-- Looking up a token fails only if a subtype cannot be opened. -/
theorem lookUp_settled (lasting : memory.Lasting) (opens : container.Opens schema place) (token : String) :
    (∃ found, (lookUp { registry, memory } container token).outcome = .ok found) ∨
      ∃ fault, (lookUp { registry, memory } container token).outcome = .error (.container fault) := by
  rcases plain_or_specific container token with plain | ⟨subtype, name, property, parts, listed⟩
  · exact .inl ⟨_, lookUp_plain plain⟩
  · have polymorphic := Container.polymorphic_of_subtype? listed
    cases nested : ({ registry, memory } : Context).nested property with
    | error fault =>
      right
      exact ⟨fault, by simp [lookUp, parts, polymorphic, Value.isTruthy, specific?, listed, bind, nested]⟩
    | ok children =>
      have standing : property.place = some (place.below (.subtype subtype)) := opens.place_of_at? listed
      obtain ⟨-, reference, -, same, -⟩ := opens.listed_of_subtype? listed
      have object : property.field.valueType = .object := by rw [same]; rfl
      have present := (Context.opens_of_nested lasting standing nested).1.mpr object
      obtain ⟨specific, rfl⟩ := Option.isSome_iff_exists.mp present
      exact .inl ⟨_, lookUp_specific parts polymorphic listed nested⟩

/-- The type property is found under its name. -/
private theorem type_property_found (opens : container.Opens schema place)
    (told : tellsType {} container token = .ok true) : ∃ target, container.property? token = some target := by
  obtain ⟨polymorphic, rfl⟩ : schema.isPolymorphic = true ∧ schema.typeProperty = token := by
    simpa [tellsType_unchanged opens] using told
  rw [Container.property?, opens.entries, if_pos polymorphic, Entries.find?_put, if_pos rfl]
  exact ⟨_, rfl⟩

/-- Inside an object, a token that names no property is refused as such. -/
theorem extend_in_object (lasting : memory.Lasting) (opens : container.Opens schema place)
    (awaited : parent.next {} = .property container)
    (shut : ∀ fault, Shut registry memory container token fault → outdated) :
    Settled outdated whole [token] (extend { registry, memory } whole dashAllowed parent token).outcome := by
  obtain ⟨tells, told⟩ : ∃ tells, tellsType {} container token = .ok tells := ⟨_, tellsType_unchanged opens token⟩
  unfold extend
  rw [awaited]
  cases tells with
  | true =>
    obtain ⟨target, found⟩ := type_property_found opens told
    simp [told, Amendments.property_unchanged.mpr found, bind, Settled.found]
  | false =>
    have comes : (∃ found, (lookUp { registry, memory } container token).outcome = .ok found) ∨ _ :=
      lookUp_settled lasting opens token
    rcases comes with ⟨found, looked⟩ | ⟨fault, looked⟩
    · cases found with
      | none => simpa [told, looked, bind] using Settled.of_reason .noSuchProperty
      | some target =>
        cases nested : ({ registry, memory } : Context).nested target with
        | ok children => simp [told, looked, nested, bind, Settled.found]
        | error fault => simpa [told, looked, nested, bind] using Settled.outdated (shut fault (.inside looked nested))
    · simpa [told, looked, bind] using Settled.outdated (shut fault (.ofSubtype looked))

/-- Extending a pointer leads to another one, or is refused by what names the whole, if all that is to be opened
inside of objects can be. -/
theorem extend_settled (lasting : memory.Lasting) (sturdy : parent.Sturdy)
    (shut : ∀ container fault, parent.next {} = .property container →
      Shut registry memory container token fault → outdated) :
    Settled outdated whole [token] (extend { registry, memory } whole dashAllowed parent token).outcome := by
  cases awaited : parent.next {} with
  | property container =>
    obtain ⟨-, _, _, opens⟩ := sturdy.at_hand awaited
    exact extend_in_object lasting opens awaited fun fault => shut container fault awaited
  | arrayIndex =>
    unfold extend
    rw [awaited]
    cases read : ArrayIndex.ofText dashAllowed token with
    | ok index => exact .found
    | error fault =>
      cases fault with
      | tooManyDigits =>
        obtain ⟨decimal, long⟩ := ArrayIndex.long_of_ofText read
        exact .tooLong List.mem_cons_self decimal long
      | notText | dashNotAllowed | notAnIndex => exact .of_reason _
  | mapKey =>
    unfold extend
    rw [awaited]
    exact .found
  | scalar | nothing =>
    unfold extend
    rw [awaited]
    exact .of_reason _
  | unopened => exact absurd awaited sturdy.next_opened

/-- A pointer whose containers were opened from schemas, and from the schemas that would be opened now unless
something is outdated. -/
structure Settles (registry : Registry) (memory : Memory) (root : Schema) (pointer : Pointer) : Prop where
  sturdy : pointer.Sturdy
  expects : memory.Faithful registry root → ∃ node, Expects registry root pointer node

theorem Settles.start (complete : root.Complete registry) (lasting : memory.Lasting)
    (opened : ({ registry, memory } : Context).root root = .ok container) :
    (Pointer.root container).Settles registry memory root where
  sturdy := by
    obtain ⟨-, -, found⟩ := Context.root_eq_ok.mp opened
    obtain ⟨⟨_, opens⟩, -⟩ := Context.opens_of_opener lasting found
    exact .root opens
  expects faithful := ⟨_, .root .root (root_opens complete faithful opened)⟩

theorem Settles.extend (complete : root.Complete registry) (lasting : memory.Lasting)
    (settles : parent.Settles registry memory root)
    (extended : (Pointer.extend { registry, memory } whole dashAllowed parent token).outcome = .ok child) :
    child.Settles registry memory root where
  sturdy := (step_of_extend extended).sturdy lasting settles.sturdy
  expects faithful := by
    obtain ⟨node, expects⟩ := settles.expects faithful
    obtain ⟨next, -, childExpects⟩ := takes_of_extend complete faithful expects extended
    exact ⟨next, childExpects⟩

theorem Settles.extendAll (complete : root.Complete registry) (lasting : memory.Lasting)
    (settles : pointer.Settles registry memory root)
    (extended : (tokens.foldlM (Pointer.extend { registry, memory } whole dashAllowed) pointer).outcome = .ok child) :
    child.Settles registry memory root := by
  induction tokens generalizing pointer with
  | nil =>
    cases extended
    exact settles
  | cons token rest ih =>
    rw [List.foldlM_cons, Opening.outcome_bind, bind_eq_ok] at extended
    obtain ⟨middle, first, further⟩ := extended
    exact ih (settles.extend complete lasting first) further

/-- Whatever was opened or registered since a pointer was obtained, its way down from the root settles it. -/
theorem Settles.of_held (complete : root.Complete registry) (lasting : memory.Lasting)
    (opened : ({ registry, memory } : Context).root root = .ok container) (held : Held container memory pointer) :
    pointer.Settles registry memory root := by
  have atRoot := Settles.start complete lasting opened
  cases atRoot.sturdy with
  | root opens =>
    have again := (held.firm opens).again registry .null (fun _ => rfl)
    exact atRoot.extendAll complete lasting again

/-- All that is nested in the objects of a faithful memory can be opened. -/
theorem Settles.shut (complete : root.Complete registry) (settles : parent.Settles registry memory root)
    {fault : Container.Fault} (awaited : parent.next {} = .property container)
    (shut : Shut registry memory container token fault) : ¬ memory.Faithful registry root := by
  intro faithful
  obtain ⟨node, expects⟩ := settles.expects faithful
  have awaits := next_awaits expects
  rw [awaited] at awaits
  cases awaits with
  | object stands opens =>
    obtain ⟨found, looked, inside⟩ := lookUp_tells complete faithful stands opens token
    cases shut with
    | ofSubtype failed => cases looked.symm.trans failed
    | inside named failed =>
      cases looked.symm.trans named
      obtain ⟨children, nested⟩ := inside _ rfl
      cases nested.symm.trans failed

theorem Settles.settled (complete : root.Complete registry) (lasting : memory.Lasting)
    (settles : parent.Settles registry memory root) :
    Settled (¬ memory.Faithful registry root) whole [token]
      (Pointer.extend { registry, memory } whole dashAllowed parent token).outcome :=
  extend_settled lasting settles.sturdy fun _ _ => settles.shut complete

theorem Settles.all_settled (complete : root.Complete registry) (lasting : memory.Lasting)
    (settles : pointer.Settles registry memory root) (tokens : List String) :
    Settled (¬ memory.Faithful registry root) whole tokens
      (tokens.foldlM (Pointer.extend { registry, memory } whole dashAllowed) pointer).outcome := by
  induction tokens generalizing pointer with
  | nil => exact .found
  | cons token rest ih =>
    have first : Settled (¬ memory.Faithful registry root) whole [token]
        (Pointer.extend { registry, memory } whole dashAllowed pointer token).outcome :=
      settles.settled complete lasting
    rw [List.foldlM_cons, Opening.outcome_bind]
    cases extended : (Pointer.extend { registry, memory } whole dashAllowed pointer token).outcome with
    | error fault =>
      rw [extended] at first
      apply first.mono
      simp
    | ok child => exact (ih (settles.extend complete lasting extended)).mono (List.subset_cons_self _ _)

/-- The tokens of what is to be parsed, which has none unless it is a text. -/
def tokensOf : Value → List String
  | .text text => Token.unescaped text
  | _ => []

/-- Whatever is to be parsed becomes a pointer or is refused by a fault that names it as a whole, and so is
every token that a pointer is to be extended by, whatever was opened or registered before. Only numbers of too
many digits are told of otherwise, and containers that are outdated. -/
theorem parser_refuses_by_name {registry : Registry} {memory : Memory} {schema : Schema} {container : Container}
    (complete : schema.Complete registry) (lasting : memory.Lasting)
    (opened : ({ registry, memory } : Context).root schema = .ok container) (dashAllowed : Bool) :
    (∀ given, Settled (¬ memory.Faithful registry schema) given (tokensOf given)
      (parse { registry, memory } container dashAllowed given).outcome) ∧
    (∀ parent token, Held container memory parent →
      Settled (¬ memory.Faithful registry schema) (.text (parent.text ++ "/" ++ Token.escape token)) [token]
        (Pointer.child { registry, memory } dashAllowed parent token).outcome) := by
  constructor
  · intro given
    unfold parse
    cases given with
    | text text =>
      simp only
      split
      · exact .of_reason _
      next begins =>
        split
        · exact .of_reason _
        next tokens pieces =>
          obtain ⟨-, -, rfl⟩ := Token.split_eq_ok.mp pieces
          exact (Settles.start complete lasting opened).all_settled complete lasting _
    | _ => exact .of_reason _
  · intro parent token held
    exact (Settles.of_held complete lasting opened held).settled complete lasting

theorem leading_zero_is_refused_by_name :
    Orders.order.Complete Orders.registry ∧ Memory.Lasting {} ∧
    ({ registry := Orders.registry } : Context).root Orders.order = .ok Orders.container ∧
    ∃ malformed, (parse { registry := Orders.registry } Orders.container true (.text "/tags/01")).outcome =
        .error (.malformed malformed) ∧
      malformed.pointer.text? = some "/tags/01" ∧ "/tags/01".toList <:+: malformed.message.toList := by
  have root : ({ registry := Orders.registry } : Context).root Orders.order = .ok Orders.container := rfl
  have settled := (parser_refuses_by_name Orders.order_complete Memory.lasting_of_empty root true).1 (.text "/tags/01")
  have refused : (parse { registry := Orders.registry } Orders.container true (.text "/tags/01")).outcome =
      .error (refusal (.text "/tags/01") (.badIndex .notAnIndex)) := rfl
  have named : (Value.text "/tags/01").display? = some "/tags/01" := rfl
  rw [refused, refusal_of_named named] at settled
  rw [refusal_of_named named] at refused
  cases settled with
  | refused _ same contained =>
    cases named.symm.trans same
    exact ⟨Orders.order_complete, Memory.lasting_of_empty, root, _, refused, rfl, contained⟩

/-- Every number of too many digits breaks the parser where the index of a tag is to be. -/
theorem long_index_breaks_parsing (decimal : ArrayIndex.isDecimal token.toList = true)
    (long : ArrayIndex.digitLimit < token.toList.length) :
    (parse { registry := Orders.registry } Orders.container dashAllowed (.text (Token.join ["tags", token]))).outcome =
      .error .tooManyDigits := by
  rw [parse_of_join]
  generalize Value.text _ = whole
  have tags : (extend { registry := Orders.registry } whole dashAllowed (.root Orders.container) "tags").outcome =
      .ok Orders.nextTag.parent := rfl
  have broken : (extend { registry := Orders.registry } whole dashAllowed Orders.nextTag.parent token).outcome =
      .error .tooManyDigits := by
    have awaited : Orders.nextTag.parent.next {} = .arrayIndex := rfl
    unfold extend
    rw [awaited, ArrayIndex.ofText_of_long decimal long]
    rfl
  rw [List.foldlM_cons, Opening.outcome_bind, tags]
  show ([token].foldlM (extend _ whole dashAllowed) Orders.nextTag.parent).outcome = _
  rw [List.foldlM_cons, Opening.outcome_bind, broken]
  rfl

/-- An index of 4301 digits is neither parsed nor refused by what names the text. -/
theorem long_index_is_not_refused :
    let text := Token.join ["tags", String.ofList (List.replicate 4301 '1')]
    let outcome := (parse { registry := Orders.registry } Orders.container true (.text text)).outcome
    Orders.order.Complete Orders.registry ∧
    ({ registry := Orders.registry } : Context).root Orders.order = .ok Orders.container ∧
    (∀ pointer, outcome ≠ .ok pointer) ∧ ∀ malformed, outcome ≠ .error (.malformed malformed) := by
  intro text outcome
  have decimal : ArrayIndex.isDecimal (String.ofList (List.replicate 4301 '1')).toList = true := by
    rw [String.toList_ofList, List.replicate_succ]
    apply ArrayIndex.isDecimal_of_digits (by decide) rfl
    intro char within
    obtain rfl := List.eq_of_mem_replicate within
    rfl
  have long : ArrayIndex.digitLimit < (String.ofList (List.replicate 4301 '1')).toList.length := by
    rw [String.toList_ofList, List.length_replicate]
    decide
  have broken : outcome = .error .tooManyDigits := long_index_breaks_parsing decimal long
  rw [broken]
  exact ⟨Orders.order_complete, rfl, nofun, nofun⟩

end Pointer
end RecordAddress
