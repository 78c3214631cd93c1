import RecordAddress.Pointer.Parsing
import RecordAddress.Proofs.Naming

/-! The parser accepts the language of pointers. A pointer expects what its node of the language takes, and
extending the one by a token goes along with the other. -/

namespace RecordAddress.Pointer
variable {registry : Registry} {memory : Memory} {root schema : Schema} {container : Container} {place : Place}

/-- The pointers that stand for a node of the language. -/
inductive Expects (registry : Registry) (root : Schema) : Pointer → Node → Prop
  | root {container : Container} {schema : Schema} {place : Place} : Stands registry root place schema →
      container.Opens schema place → Expects registry root (.root container) (.object schema)
  | property {parent : Pointer} {token : String} {target : Property} {children : Option Container} {node : Node} :
      Arranges registry root target.field.arrangement children node →
      Expects registry root (.property parent token target children) node
  | element {parent : Pointer} {above token : String} {target : Property} {children : Option Container}
      {index : ElementIndex} {node : Node} : Furnishes registry root target.field.content children node →
      index ≠ .afterLast → Expects registry root (.element (.property parent above target children) token index) node
  | dash {parent : Pointer} {token : String} : Expects registry root (.element parent token .afterLast) .leaf

variable {pointer child : Pointer} {node : Node} {whole : Value} {dashAllowed : Bool} {token : String}

/-- What the token after a pointer stands for, as its node has it. -/
inductive Awaits (registry : Registry) (root : Schema) : Node → Next → Prop
  | object {schema : Schema} {container : Container} {place : Place} : Stands registry root place schema →
      container.Opens schema place → Awaits registry root (.object schema) (.property container)
  | array {element : Content Schema} : Awaits registry root (.array element) .arrayIndex
  | map {element : Content Schema} : Awaits registry root (.map element) .mapKey
  | scalar : Awaits registry root .leaf .scalar
  | nothing : Awaits registry root .leaf .nothing

private theorem inside_awaits {content : Content Schema} {children : Option Container}
    (furnishes : Furnishes registry root content children node) :
    Awaits registry root node (.inside (decide (content.valueType = .object)) children) := by
  cases furnishes with
  | scalar => exact .scalar
  | nested _ stands opens => exact .object stands opens

private theorem next_of_element {parent : Pointer} {above token : String} {target : Property}
    {children : Option Container} {index : ElementIndex} (inside : index ≠ .afterLast) :
    (element (property parent above target children) token index).next {} =
      .inside (decide (target.field.content.valueType = .object)) children := by
  cases index with
  | afterLast => exact absurd rfl inside
  | position | key =>
    simp only [next, Amendments.isDash_unchanged, isDash, index?, property?, Amendments.holdsObjects_unchanged]
    rfl

theorem next_awaits (expects : Expects registry root pointer node) : Awaits registry root node (pointer.next {}) := by
  cases expects with
  | root stands opens => exact .object stands opens
  | property arranges =>
    simp only [next, Amendments.collection?_unchanged, Amendments.holdsObjects_unchanged]
    rcases arranges.by_kind with ⟨single, furnishes⟩ | ⟨kind, _, collection, -, rfl⟩
    · rw [single]
      exact inside_awaits furnishes
    · rw [collection]
      cases kind
      · exact .array
      · exact .map
  | element furnishes inside =>
    rw [next_of_element inside]
    exact inside_awaits furnishes
  | dash =>
    simp only [next, Amendments.isDash_unchanged, isDash, index?, decide_true, ite_true]
    exact .nothing

theorem collection_expects {element : Content Schema} (kind : Collection)
    (expects : Expects registry root pointer (kind.node element)) :
    ∃ parent above target children inner, pointer = .property parent above target children ∧
      target.field.content = element ∧ Furnishes registry root element children inner := by
  generalize same : kind.node element = node at expects
  cases expects with
  | root => cases kind <;> cases same
  | @property _ _ target _ _ arranges =>
    rcases arranges.by_kind with ⟨-, furnishes⟩ | ⟨other, inner, -, furnishes, rfl⟩
    · rw [← same] at furnishes
      exact absurd furnishes Furnishes.single
    · have content : target.field.content = element := by cases kind <;> cases other <;> cases same <;> rfl
      exact ⟨_, _, _, _, inner, rfl, content, content ▸ furnishes⟩
  | element furnishes =>
    rw [← same] at furnishes
    exact absurd furnishes Furnishes.single
  | dash => cases kind <;> cases same

theorem takes_of_extend (complete : root.Complete registry) (faithful : memory.Faithful registry root)
    (expects : Expects registry root pointer node)
    (extended : (extend { registry, memory } whole dashAllowed pointer token).outcome = .ok child) :
    ∃ next, node.Takes registry dashAllowed token next ∧ Expects registry root child next := by
  have awaits := next_awaits expects
  rcases extend_eq_ok.mp extended with ⟨index, next, read, rfl⟩ | ⟨next, rfl⟩ | ⟨container, target, children, next, names, rfl⟩
  · rw [next] at awaits
    cases awaits
    obtain ⟨parent, above, target, children, inner, rfl, rfl, furnishes⟩ := collection_expects .array expects
    rcases ArrayIndex.ofText_eq_ok.mp read with ⟨rfl, allowed, rfl⟩ | ⟨decimal, -, rfl⟩
    · exact ⟨.leaf, .afterLast allowed, .dash⟩
    · exact ⟨inner, .position decimal furnishes.leads, .element furnishes (by simp [ElementIndex.ofArray])⟩
  · rw [next] at awaits
    cases awaits
    obtain ⟨parent, above, target, children, inner, rfl, rfl, furnishes⟩ := collection_expects .map expects
    exact ⟨inner, .key furnishes.leads, .element furnishes (by simp)⟩
  · rw [next] at awaits
    cases awaits with
    | object stands opens =>
      obtain ⟨node, takes, arranges⟩ := takes_of_names complete faithful stands opens names
      exact ⟨node, takes, .property arranges⟩

/-- A pointer can be extended by every token that its node takes, but for numbers of too many digits. -/
theorem extend_of_takes {next : Node} (complete : root.Complete registry) (faithful : memory.Faithful registry root)
    (expects : Expects registry root pointer node) (takes : node.Takes registry dashAllowed token next)
    (short : ArrayIndex.isDecimal token.toList = true → token.toList.length ≤ ArrayIndex.digitLimit) :
    ∃ child, (extend { registry, memory } whole dashAllowed pointer token).outcome = .ok child ∧
      Expects registry root child next := by
  have awaits := next_awaits expects
  cases node with
  | object schema =>
    generalize after : pointer.next {} = what at awaits
    cases awaits with
    | object stands opens =>
      obtain ⟨target, children, names, arranges⟩ := names_of_takes complete faithful stands opens takes
      exact ⟨_, extend_eq_ok.mpr (.inr (.inr ⟨_, target, children, after, names, rfl⟩)), .property arranges⟩
  | array element =>
    obtain ⟨parent, above, target, children, inner, rfl, rfl, furnishes⟩ := collection_expects .array expects
    generalize after : Pointer.next {} _ = what at awaits
    cases awaits
    cases takes with
    | position decimal leads =>
      cases furnishes.leads.unique leads
      refine ⟨_, extend_eq_ok.mpr (.inl ⟨_, after, ArrayIndex.ofText_eq_ok.mpr (.inr ⟨decimal, short decimal, rfl⟩), rfl⟩), ?_⟩
      exact .element furnishes (by simp [ElementIndex.ofArray])
    | afterLast allowed =>
      exact ⟨_, extend_eq_ok.mpr (.inl ⟨_, after, ArrayIndex.ofText_eq_ok.mpr (.inl ⟨rfl, allowed, rfl⟩), rfl⟩), .dash⟩
  | map element =>
    obtain ⟨parent, above, target, children, inner, rfl, rfl, furnishes⟩ := collection_expects .map expects
    generalize after : Pointer.next {} _ = what at awaits
    cases awaits
    cases takes with
    | key leads =>
      cases furnishes.leads.unique leads
      exact ⟨_, extend_eq_ok.mpr (.inr (.inl ⟨after, rfl⟩)), .element furnishes (by simp)⟩
  | leaf => cases takes

/-- A pointer can be extended by a sequence of tokens exactly if its node derives it. -/
theorem extendAll_iff (complete : root.Complete registry) (faithful : memory.Faithful registry root)
    {tokens : List String} (expects : Expects registry root pointer node)
    (short : ∀ token ∈ tokens, ArrayIndex.isDecimal token.toList = true → token.toList.length ≤ ArrayIndex.digitLimit) :
    (∃ last, (tokens.foldlM (extend { registry, memory } whole dashAllowed) pointer).outcome = .ok last) ↔
      node.Derives registry dashAllowed tokens := by
  induction tokens generalizing pointer node with
  | nil => exact ⟨fun _ => .stop, fun _ => ⟨pointer, rfl⟩⟩
  | cons token rest ih =>
    simp only [List.foldlM_cons, Opening.outcome_bind, bind_eq_ok]
    have shorter := fun token within => short token (List.mem_cons_of_mem _ within)
    constructor
    · rintro ⟨last, child, extended, further⟩
      obtain ⟨next, takes, childExpects⟩ := takes_of_extend complete faithful expects extended
      exact .go takes ((ih childExpects shorter).mp ⟨last, further⟩)
    · intro derives
      cases derives with
      | go takes derives =>
        obtain ⟨child, extended, childExpects⟩ :=
          extend_of_takes complete faithful expects takes (short token List.mem_cons_self)
        obtain ⟨last, further⟩ := (ih childExpects shorter).mpr derives
        exact ⟨last, child, extended, further⟩

theorem parse_eq_ok {context : Context} {text : String} :
    (parse context container dashAllowed (.text text)).outcome = .ok pointer ↔
      (text = "" ∨ text.toList.head? = some '/') ∧ Token.WellEscaped text ∧
      ((Token.unescaped text).foldlM (extend context (.text text) dashAllowed) (.root container)).outcome = .ok pointer := by
  unfold parse
  by_cases begins : text = "" ∨ text.toList.head? = some '/'
  · have proper : ¬ (text ≠ "" ∧ text.toList.head? ≠ some '/') := by
      rintro ⟨present, other⟩
      exact begins.elim present other
    simp only [proper, ite_false, begins, true_and]
    cases pieces : Token.split text with
    | error fault =>
      have wrong : ¬ Token.WellEscaped text := by
        intro escaped
        cases pieces.symm.trans (Token.split_eq_ok.mpr ⟨escaped, begins, rfl⟩)
      simp [wrong]
    | ok tokens =>
      obtain ⟨escaped, -, rfl⟩ := Token.split_eq_ok.mp pieces
      simp [escaped]
  · have improper : text ≠ "" ∧ text.toList.head? ≠ some '/' := not_or.mp begins
    simp [improper]

/-- A text is parsed to what the root pointer becomes when it is extended by the tokens. -/
theorem parse_of_split {context : Context} {text : String} {tokens : List String}
    (pieces : Token.split text = .ok tokens) :
    parse context container dashAllowed (.text text) =
      tokens.foldlM (extend context (.text text) dashAllowed) (.root container) := by
  obtain ⟨-, begins, -⟩ := Token.split_eq_ok.mp pieces
  have proper : ¬ (text ≠ "" ∧ text.toList.head? ≠ some '/') := by
    rintro ⟨present, other⟩
    exact begins.elim present other
  unfold parse
  simp only [proper, if_false, pieces]

theorem parse_of_join {context : Context} (tokens : List String) :
    (parse context container dashAllowed (.text (Token.join tokens))).outcome =
      (tokens.foldlM (extend context (.text (Token.join tokens)) dashAllowed) (.root container)).outcome := by
  rw [parse_of_split (Token.split_join tokens)]

theorem split_of_parse {context : Context} {given : Value}
    (parsed : (parse context container dashAllowed given).outcome = .ok pointer) :
    ∃ text tokens, given = .text text ∧ Token.split text = .ok tokens := by
  cases given with
  | text text =>
    obtain ⟨begins, escaped, -⟩ := parse_eq_ok.mp parsed
    exact ⟨text, _, rfl, Token.split_eq_ok.mpr ⟨escaped, begins, rfl⟩⟩
  | _ => cases parsed

/-- The parser accepts exactly the language of pointers, as long as nothing of what is remembered is outdated. -/
theorem accepts_language (complete : root.Complete registry) (faithful : memory.Faithful registry root)
    (opened : ({ registry, memory } : Context).root root = .ok container) (dashAllowed : Bool) (text : String)
    (short : ∀ token ∈ Token.unescaped text,
      ArrayIndex.isDecimal token.toList = true → token.toList.length ≤ ArrayIndex.digitLimit) :
    (∃ pointer, (parse { registry, memory } container dashAllowed (.text text)).outcome = .ok pointer) ↔
      (text = "" ∨ text.toList.head? = some '/') ∧ Token.WellEscaped text ∧
      (Node.object root).Derives registry dashAllowed (Token.unescaped text) := by
  have expects : Expects registry root (.root container) (.object root) :=
    .root .root (root_opens complete faithful opened)
  simp only [parse_eq_ok, exists_and_left, extendAll_iff complete faithful expects short]

end RecordAddress.Pointer
