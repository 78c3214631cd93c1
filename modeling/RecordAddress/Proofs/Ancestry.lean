import Mathlib.Order.Defs.Unbundled
import RecordAddress.Proofs.Printing

/-! Pointers and those above them. The pointers of a chain are what the beginnings of its tokens are parsed to, and a
pointer is a child of all that come before it in its chain, and of no others. -/

namespace RecordAddress

namespace Token
variable {piece other rest later : List Char}

/-- The piece in front of a slash is told by where the slash is. -/
private theorem piece_isPrefix (none : '/' ∉ piece) (otherNone : '/' ∉ other)
    (begins : later = [] ∨ ∃ beyond, later = '/' :: beyond) :
    piece ++ '/' :: rest <+: other ++ later ↔ piece = other ∧ '/' :: rest <+: later := by
  induction piece generalizing other with
  | nil =>
    cases other with
    | nil => simp
    | cons first other =>
      obtain ⟨unlike, -⟩ := List.ne_and_not_mem_of_not_mem_cons otherNone
      simp [unlike]
  | cons first piece ih =>
    obtain ⟨unlike, noneLater⟩ := List.ne_and_not_mem_of_not_mem_cons none
    cases other with
    | nil => rcases begins with rfl | ⟨beyond, rfl⟩ <;> simp [unlike.symm]
    | cons second other =>
      obtain ⟨-, otherLater⟩ := List.ne_and_not_mem_of_not_mem_cons otherNone
      rw [List.cons_append, List.cons_append, List.cons_prefix_cons, ih noneLater otherLater, List.cons.injEq, and_assoc]

private theorem join_begins (tokens : List String) : (join tokens).toList = [] ∨ ∃ beyond, (join tokens).toList = '/' :: beyond := by
  cases tokens with
  | nil => exact .inl rfl
  | cons token rest => exact .inr ⟨_, toList_join token rest⟩

theorem escapeChars_injective {first second : String} (same : escapeChars first.toList = escapeChars second.toList) :
    first = second := by
  rw [← String.toList_inj, ← unescape_escape first.toList, same, unescape_escape]

/-- A text of tokens goes on with a slash after another one exactly if more tokens follow those of the other one. -/
theorem join_isPrefix {tokens longer : List String} :
    (join tokens).toList ++ ['/'] <+: (join longer).toList ↔ tokens <+: longer ∧ tokens ≠ longer := by
  induction tokens generalizing longer with
  | nil => cases longer <;> simp [join]
  | cons token rest ih =>
    cases longer with
    | nil => simp [join]
    | cons next longer =>
      obtain ⟨after, slash⟩ : ∃ after, (join rest).toList ++ ['/'] = '/' :: after := by
        rcases join_begins rest with empty | ⟨beyond, more⟩
        · exact ⟨[], by rw [empty]; rfl⟩
        · exact ⟨beyond ++ ['/'], by rw [more]; rfl⟩
      rw [toList_join, toList_join, List.cons_append, List.append_assoc, List.cons_prefix_cons, slash,
        piece_isPrefix (no_slash_in_escape _) (no_slash_in_escape _) (join_begins longer), ← slash, ih, List.cons_prefix_cons]
      constructor
      · rintro ⟨-, same, begins, shorter⟩
        obtain rfl := escapeChars_injective same
        exact ⟨⟨rfl, begins⟩, by simpa using shorter⟩
      · rintro ⟨⟨rfl, begins⟩, shorter⟩
        exact ⟨rfl, rfl, begins, by simpa using shorter⟩

end Token

namespace Pointer
variable {registry : Registry} {memory : Memory} {container : Container} {schema : Schema} {place : Place}
  {pointer parent last lower upper : Pointer} {tokens : List String} {dashAllowed : Bool} {depth count : Nat}

theorem parent_tokens (pointer : Pointer) : pointer.parent.tokens = pointer.tokens.dropLast := by
  cases pointer <;> simp [Pointer.parent, tokens]

theorem ancestor_succ (pointer : Pointer) (depth : Nat) : pointer.ancestor (depth + 1) = pointer.parent.ancestor depth := by
  induction depth with
  | zero => rfl
  | succ depth ih => rw [ancestor, ih, ancestor]

/-- What loses its last part at every parent has lost as many parts at an ancestor as that is farther up. -/
theorem drops_to_ancestor {α : Type} {parts : Pointer → List α} (drops : ∀ pointer, parts pointer.parent = (parts pointer).dropLast)
    (pointer : Pointer) (depth : Nat) :
    parts (pointer.ancestor depth) = (parts pointer).take ((parts pointer).length - depth) := by
  induction depth with
  | zero => simp [ancestor]
  | succ depth ih =>
    rw [ancestor, drops, ih, List.dropLast_eq_take, List.take_take, List.length_take]
    congr 1
    omega

theorem tokens_ancestor (pointer : Pointer) (depth : Nat) :
    (pointer.ancestor depth).tokens = pointer.tokens.take (pointer.tokens.length - depth) :=
  drops_to_ancestor parent_tokens pointer depth

theorem length_chain (pointer : Pointer) : pointer.chain.length = pointer.tokens.length + 1 := by
  induction pointer with
  | root => rfl
  | property _ _ _ _ ih | element _ _ _ ih => simp [chain, tokens, ih]

/-- The pointers of a chain are the ancestors of the last one, the farthest one first. -/
theorem chain_getElem? (inside : count ≤ pointer.tokens.length) :
    pointer.chain[count]? = some (pointer.ancestor (pointer.tokens.length - count)) := by
  induction pointer with
  | root =>
    obtain rfl := Nat.le_zero.mp inside
    rfl
  | property above token _ _ ih | element above token _ ih =>
    simp only [chain, tokens, List.length_append, List.length_singleton] at inside ⊢
    rcases Nat.lt_or_eq_of_le inside with before | rfl
    · have higher := Nat.le_of_lt_succ before
      rw [List.getElem?_append_left (by rw [length_chain]; exact before), ih higher, Nat.sub_add_comm higher, ancestor_succ]
      rfl
    · rw [← length_chain, List.getElem?_concat_length, Nat.sub_self, ancestor]

theorem mem_dropLast_chain {link : Pointer} :
    link ∈ pointer.chain.dropLast ↔
      ∃ count < pointer.tokens.length, pointer.ancestor (pointer.tokens.length - count) = link := by
  simp only [List.mem_iff_getElem?, List.getElem?_dropLast, length_chain, Nat.add_sub_cancel]
  refine exists_congr fun count => ?_
  split
  next inside => rw [chain_getElem? (Nat.le_of_lt inside), Option.some.injEq, and_iff_right inside]
  next outside => simp [outside]

theorem ancestor_in_chain (inside : depth ≤ pointer.tokens.length) : pointer.ancestor depth ∈ pointer.chain := by
  have here := chain_getElem? (Nat.sub_le pointer.tokens.length depth)
  rw [Nat.sub_sub_self inside] at here
  exact List.mem_of_getElem? here

theorem ancestor_before (inside : depth ≤ pointer.tokens.length) (further : depth ≠ 0) :
    pointer.ancestor depth ∈ pointer.chain.dropLast :=
  mem_dropLast_chain.mpr ⟨pointer.tokens.length - depth, by omega, by rw [Nat.sub_sub_self inside]⟩

/-- The tokens of what is above a pointer are the first ones of its own. -/
theorem tokens_above (inside : count ≤ pointer.tokens.length) :
    (pointer.ancestor (pointer.tokens.length - count)).tokens = pointer.tokens.take count := by
  rw [tokens_ancestor, Nat.sub_sub_self inside]

/-- A pointer is a child of another one exactly if its tokens are those of the other one and more. -/
theorem isChildOf_iff : lower.isChildOf upper = true ↔ upper.tokens <+: lower.tokens ∧ upper.tokens ≠ lower.tokens := by
  rw [isChildOf, List.isPrefixOf_iff_prefix, text_eq_join upper, text_eq_join lower, String.toList_append]
  exact Token.join_isPrefix

theorem isChildOf_strict : IsStrictOrder Pointer fun lower upper => lower.isChildOf upper = true where
  irrefl pointer within := (isChildOf_iff.mp within).2 rfl
  trans lowest middle highest below further := by
    obtain ⟨begins, shorter⟩ := isChildOf_iff.mp below
    obtain ⟨higher, -⟩ := isChildOf_iff.mp further
    refine isChildOf_iff.mpr ⟨higher.trans begins, fun same => shorter (begins.eq_of_length_le ?_)⟩
    rw [← same]
    exact higher.length_le

theorem Firm.ancestor (firm : Firm container memory pointer) (depth : Nat) : Firm container memory (pointer.ancestor depth) := by
  have parent {lower : Pointer} (firm : Firm container memory lower) : Firm container memory lower.parent := by
    cases firm with
    | root => exact .root
    | step above _ _ step =>
      rw [step.parent_eq.1]
      exact above
  induction depth with
  | zero => exact firm
  | succ depth ih => exact parent ih

/-- What is above a pointer that is held is what the beginning of its tokens is parsed to. -/
theorem Firm.parse_above (firm : Firm container memory pointer) (registry : Registry) (inside : count ≤ pointer.tokens.length) :
    (parse { registry, memory } container true (.text (Token.join (pointer.tokens.take count)))).outcome =
      .ok (pointer.ancestor (pointer.tokens.length - count)) := by
  have above := firm.ancestor (pointer.tokens.length - count)
  rw [parse_of_join, ← tokens_above inside]
  exact above.again registry _ fun _ => rfl

/-- Which text is being parsed only matters where it is refused. -/
private theorem extend_whole {context : Context} {whole other : Value} {token : String} {child : Pointer}
    (extended : (extend context whole dashAllowed parent token).outcome = .ok child) :
    (extend context other dashAllowed parent token).outcome = .ok child :=
  extend_eq_ok.mpr (extend_eq_ok.mp extended)

/-- On the way to a pointer its tokens lead through all that is above it. -/
theorem extendAll_above {whole : Value} (other : Value)
    (extended : (tokens.foldlM (extend { registry, memory } whole dashAllowed) pointer).outcome = .ok last)
    (inside : count ≤ tokens.length) :
    ((tokens.take count).foldlM (extend { registry, memory } other dashAllowed) pointer).outcome =
      .ok (last.ancestor (tokens.length - count)) := by
  induction tokens using List.reverseRecOn generalizing last count with
  | nil =>
    cases extended
    rw [List.take_nil, List.length_nil, Nat.zero_sub]
    rfl
  | append_singleton tokens token ih =>
    rw [extendAll_snoc, bind_eq_ok] at extended
    obtain ⟨above, reached, made⟩ := extended
    rw [List.length_append, List.length_singleton] at inside ⊢
    rcases Nat.lt_or_eq_of_le inside with before | rfl
    · have higher := Nat.le_of_lt_succ before
      rw [List.take_append_of_le_length higher, ih reached higher, Nat.sub_add_comm higher, ancestor_succ,
        (parent_of_extend made).1]
    · have whole := ih reached (Nat.le_refl _)
      rw [List.take_length, Nat.sub_self] at whole
      rw [List.take_of_length_le (by simp), extendAll_snoc, whole, Nat.sub_self]
      exact extend_whole made

/-- What comes right before a pointer in a chain is its parent. -/
theorem parent_in_chain {next : Pointer} (within : pointer.chain[count + 1]? = some next) :
    pointer.chain[count]? = some next.parent := by
  have further : count + 1 ≤ pointer.tokens.length := by
    have inside := (List.getElem?_eq_some_iff.mp within).1
    rw [length_chain] at inside
    omega
  obtain rfl := Option.some.inj ((chain_getElem? further).symm.trans within)
  have depth : pointer.tokens.length - count = pointer.tokens.length - (count + 1) + 1 := by omega
  rw [chain_getElem? (by omega), depth]
  rfl

/-- A pointer is a child of another one exactly if that is above it in its chain. -/
theorem Firm.isChildOf_iff_above (firm : Firm container memory lower) (otherFirm : Firm container memory upper) :
    lower.isChildOf upper = true ↔ ∃ link ∈ lower.chain.dropLast, upper.isSame link = true := by
  rw [isChildOf_iff]
  constructor
  · rintro ⟨begins, shorter⟩
    have before : upper.tokens.length < lower.tokens.length :=
      Nat.lt_of_le_of_ne begins.length_le fun same => shorter (begins.eq_of_length same)
    have same : lower.ancestor (lower.tokens.length - upper.tokens.length) = upper := by
      refine (firm.ancestor _).eq_of_tokens otherFirm ?_
      rw [tokens_above (Nat.le_of_lt before), ← List.prefix_iff_eq_take.mp begins]
    exact ⟨upper, mem_dropLast_chain.mpr ⟨_, before, same⟩, by simp [isSame]⟩
  · rintro ⟨link, within, same⟩
    simp only [isSame, Bool.and_eq_true, decide_eq_true_eq] at same
    obtain ⟨count, before, rfl⟩ := mem_dropLast_chain.mp within
    have tokens : upper.tokens = lower.tokens.take count := by
      have pieces := split_tokens upper
      rw [same.2, split_tokens, tokens_above (Nat.le_of_lt before)] at pieces
      exact (Except.ok.inj pieces).symm
    rw [tokens]
    refine ⟨List.take_prefix count _, fun whole => ?_⟩
    have length := congrArg List.length whole
    rw [List.length_take] at length
    omega

/-- The chain of a pointer has one pointer more than there are tokens. Each is what the tokens up to it are parsed to, and
the parent of the next one. So what begins a text that is accepted is accepted itself. A pointer is a child of another
one exactly if its tokens are those of the other one and more, which is to say that the other one comes before it in its
chain, and so being a child is a strict order. -/
theorem chains_are_prefixes (isRoot : container.RootOf schema memory) (registry : Registry) :
    ({ registry, memory } : Context).root schema = .ok container ∧
    (∀ dashAllowed text tokens pointer, Token.split text = .ok tokens →
      (parse { registry, memory } container dashAllowed (.text text)).outcome = .ok pointer →
      ∀ count ≤ tokens.length, ∃ link, pointer.chain[count]? = some link ∧
        (parse { registry, memory } container dashAllowed (.text (Token.join (tokens.take count)))).outcome = .ok link) ∧
    (∀ pointer, Held container memory pointer →
      Token.split pointer.text = .ok pointer.tokens ∧ pointer.chain.length = pointer.tokens.length + 1 ∧
      ∀ count ≤ pointer.tokens.length, ∃ link, pointer.chain[count]? = some link ∧
        (parse { registry, memory } container true (.text (Token.join (pointer.tokens.take count)))).outcome = .ok link ∧
        ∀ next, pointer.chain[count + 1]? = some next → next.parent = link) ∧
    (∀ lower upper, Held container memory lower → Held container memory upper →
      (lower.isChildOf upper = true ↔ upper.tokens <+: lower.tokens ∧ upper.tokens ≠ lower.tokens) ∧
      (lower.isChildOf upper = true ↔ ∃ link ∈ lower.chain.dropLast, upper.isSame link = true)) ∧
    IsStrictOrder Pointer fun lower upper => lower.isChildOf upper = true := by
  obtain ⟨_, _, opens⟩ := isRoot.described
  refine ⟨isRoot.stays registry, ?_, ?_, ?_, isChildOf_strict⟩
  · intro dashAllowed text tokens pointer pieces parsed count inside
    rw [parse_of_split pieces] at parsed
    have same : pointer.tokens = tokens := tokens_of_extendAll parsed
    refine ⟨_, chain_getElem? (by rw [same]; exact inside), ?_⟩
    rw [parse_of_join, same]
    exact extendAll_above _ parsed inside
  · intro pointer held
    refine ⟨split_tokens pointer, length_chain pointer, fun count inside => ?_⟩
    have here := chain_getElem? inside
    refine ⟨_, here, (held.firm opens).parse_above registry inside, fun next isNext => ?_⟩
    exact Option.some.inj ((parent_in_chain isNext).symm.trans here)
  · intro lower upper held otherHeld
    exact ⟨isChildOf_iff, (held.firm opens).isChildOf_iff_above (otherHeld.firm opens)⟩

/-- The opener of an event is a child of the event, and of the pointers above that. -/
theorem opener_is_below_its_event :
    let former := Memory.remember {} Orders.container
    let events := parse { registry := Orders.registry, memory := former } Orders.container true (.text "/events/0")
    let memory := former.rememberAll events.opened
    ∃ event opener, events.outcome = .ok event ∧
      let openers := event.child { registry := Orders.registry, memory } true "OPENED:byWho"
      let latest := memory.rememberAll openers.opened
      openers.outcome = .ok opener ∧ Orders.container.RootOf Orders.order latest ∧
      Held Orders.container latest event ∧ Held Orders.container latest opener ∧
      opener.tokens = ["events", "0", "OPENED:byWho"] ∧ opener.isChildOf event = true ∧ event.isChildOf opener = false ∧
      (parse { registry := Orders.registry, memory := latest } Orders.container true (.text "/events/0")).outcome = .ok event := by
  intro former events memory
  obtain ⟨event, opener, reached, made, eventTokens, openerTokens, third⟩ : ∃ event opener, events.outcome = .ok event ∧
      (event.child { registry := Orders.registry, memory } true "OPENED:byWho").outcome = .ok opener ∧
      event.tokens = ["events", "0"] ∧ opener.tokens = ["events", "0", "OPENED:byWho"] ∧ opener.chain[2]? = some event :=
    ⟨_, _, rfl, rfl, rfl, rfl, rfl⟩
  have root : ({ registry := Orders.registry } : Context).root Orders.order = .ok Orders.container := rfl
  obtain ⟨⟨_, opens⟩, -⟩ := Context.opens_of_opener Memory.lasting_of_empty (Context.root_eq_ok.mp root).2.2
  have lasting : former.Lasting := Memory.lasting_of_empty.remember ⟨_, _, opens⟩
  have laterLasting : memory.Lasting := lasting_after_parse lasting ⟨_, _, opens⟩ _
  have eventHeld : Held Orders.container memory event := held_of_parse lasting reached
  have openerHeld := held_of_child laterLasting eventHeld made
  have grows := Memory.grows_rememberAll memory (event.child { registry := Orders.registry, memory } true "OPENED:byWho").opened
  have isRoot : Orders.container.RootOf Orders.order _ :=
    ⟨Orders.registry, {}, Memory.lasting_of_empty, root, (Memory.grows_rememberAll former events.opened).trans grows⟩
  obtain ⟨-, -, chain, children, strict⟩ := chains_are_prefixes isRoot Orders.registry
  have below : opener.isChildOf event = true := by
    refine (children opener event openerHeld (eventHeld.mono grows)).1.mpr ?_
    rw [eventTokens, openerTokens]
    exact ⟨⟨["OPENED:byWho"], rfl⟩, by decide⟩
  have notAbove : event.isChildOf opener = false :=
    Bool.eq_false_iff.mpr fun above => strict.irrefl _ (strict.trans _ _ _ below above)
  obtain ⟨-, -, links⟩ := chain opener openerHeld
  obtain ⟨link, isThird, parsed, -⟩ := links 2 (by rw [openerTokens]; decide)
  obtain rfl := Option.some.inj (third.symm.trans isThird)
  rw [openerTokens] at parsed
  exact ⟨event, opener, reached, made, isRoot, eventHeld.mono grows, openerHeld, openerTokens, below, notAbove, parsed⟩

end Pointer
end RecordAddress
