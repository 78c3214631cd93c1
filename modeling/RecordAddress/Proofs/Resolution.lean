import RecordAddress.Location.Resolution
import RecordAddress.Proofs.DirectReading
import RecordAddress.Proofs.Printing

/-! Reading without a schema. A location takes its steps by the document alone, where a pointer is told by its schema
what to look for. In a document of mappings, sequences and scalars both come to the same, if the pointer names no
property of a subtype: the subtype stands in its tokens and not in the document. Whether the walk goes into texts makes
no difference to this. -/

namespace RecordAddress
open Value

namespace Location
variable {intoTexts : Bool} {tokens : List String} {token : String} {document holder found : Value}

theorem walk_snoc : walk intoTexts ⟨tokens ++ [token]⟩ document =
    (walk intoTexts ⟨tokens⟩ document).bind fun holder => step intoTexts holder token := by
  simp only [walk, List.foldlM_append, List.foldlM_cons, List.foldlM_nil, bind_pure]
  rfl

theorem step_of_mapping {entries : Entries Value} (shape : holder.entries? = some entries) :
    step intoTexts holder token = Entries.find? token entries := by
  cases holder <;> cases shape <;> rfl

theorem step_of_sequence {items : List Value} {index : Nat} (shape : holder.items? = some items)
    (position : ArrayIndex.position? token.toList = .ok index) : step intoTexts holder token = items[index]? := by
  cases holder <;> cases shape <;> simp [step, elementAt?, position]

theorem step_plain (plain : holder.throughout isPlain = true) (reached : step intoTexts holder token = some found) :
    found.throughout isPlain = true := by
  have item {items : List Value} (shape : holder.items? = some items) (within : elementAt? items token = some found) :
      found.throughout isPlain = true := by
    unfold elementAt? at within
    split at within
    · exact (allThroughout_iff items).mp (throughout_item shape plain) found (List.mem_of_getElem? within)
    · cases within
  cases holder with
  | dict | view => exact throughout_of_find? (throughout_entry rfl plain) reached
  | list | tuple => exact item rfl reached
  | text =>
    cases intoTexts with
    | false => cases reached
    | true =>
      obtain ⟨_, -, rfl⟩ := Option.map_eq_some_iff.mp reached
      rfl
  | bytes =>
    obtain ⟨_, -, rfl⟩ := Option.map_eq_some_iff.mp reached
    rfl
  | _ => cases reached

/-- The location leads to the value, or nowhere if that is nothing. -/
def LeadsTo (intoTexts : Bool) (location : Location) (document value : Value) : Prop :=
  (location.walk intoTexts document = some value ∧ value.throughout isPlain = true) ∨
  (location.walk intoTexts document = none ∧ (value.isUnset = true ∨ value.isMissing = true))

theorem LeadsTo.snoc {stored : Option Value} {absent : Value} (leads : LeadsTo intoTexts ⟨tokens⟩ document holder)
    (settled : holder.isUnset = false ∧ holder.isMissing = false)
    (here : holder.isPlain = true → step intoTexts holder token = stored)
    (nothing : absent.isUnset = true ∨ absent.isMissing = true) :
    LeadsTo intoTexts ⟨tokens ++ [token]⟩ document (stored.getD absent) := by
  rcases leads with ⟨above, plain⟩ | ⟨-, nowhere⟩
  · have goesOn : walk intoTexts ⟨tokens ++ [token]⟩ document = stored := by
      rw [walk_snoc, above, Option.bind_some, here (check_of_throughout plain)]
    cases stored with
    | none => exact .inr ⟨goesOn, nothing⟩
    | some found => exact .inl ⟨goesOn, step_plain plain (here (check_of_throughout plain))⟩
  · simp [settled] at nowhere

theorem LeadsTo.below_null (leads : LeadsTo intoTexts ⟨tokens⟩ document .null) (token : String) :
    LeadsTo intoTexts ⟨tokens ++ [token]⟩ document .missing := by
  refine .inr ⟨?_, .inr rfl⟩
  rcases leads with ⟨above, -⟩ | ⟨above, -⟩ <;> simp [walk_snoc, above, step]

end Location

namespace Pointer
variable {registry : Registry} {memory : Memory} {container : Container} {schema : Schema} {place : Place}
  {pointer parent child : Pointer} {intoTexts : Bool} {token : String} {record value found : Value}

/-- Whether the token stands for a property of a subtype, such as `subtype:property`, below the pointer. -/
def namesSubtype (parent : Pointer) (token : String) : Bool :=
  (subtypeAndName? token).any fun (subtype, _) => parent.children?.any fun container => (container.subtype? subtype).isSome

/-- Whether some token of the pointer stands for a property of a subtype. -/
def isQualified : Pointer → Bool
  | root _ => false
  | property parent token _ _ => parent.isQualified || parent.namesSubtype token
  | element parent _ _ => parent.isQualified

/-- The tokens of the pointer, but without the subtypes in front of properties. -/
def names : Pointer → List String
  | root _ => []
  | property parent _ target _ => parent.names ++ [target.name]
  | element parent token _ => parent.names ++ [token]

/-- Whether the token tells the element of the index. -/
def Tells (token : String) : ElementIndex → Prop
  | .position index => ArrayIndex.position? token.toList = .ok index
  | .afterLast => True
  | .key key => key = token

private theorem Reached.tells {index : ElementIndex} (reached : Reached container (.element parent token index)) :
    Tells token index := by
  cases reached with
  | extend _ extended =>
    rcases extend_eq_ok.mp extended with ⟨position, -, read, same⟩ | ⟨-, same⟩ | ⟨_, _, _, -, -, same⟩
    · cases same
      rcases ArrayIndex.ofText_eq_ok.mp read with ⟨-, -, rfl⟩ | ⟨decimal, short, rfl⟩
      · trivial
      · simp [Tells, ElementIndex.ofArray, ArrayIndex.position?, decimal, short]
    · cases same
      rfl
    · cases same

/-- A document stores the properties of an object under their names. -/
private theorem mapping_of_stored {field : Field Schema} {holder : Value} {stored : Option Value}
    (plain : holder.isPlain = true) (has : holder.stored? field = some stored) :
    ∃ entries, holder.entries? = some entries ∧ Entries.find? field.name entries = stored := by
  cases holder with
  | dict | view => exact ⟨_, rfl, Option.some.inj has⟩
  | object => cases plain
  | _ => cases has

private theorem step_of_stored {field : Field Schema} {holder : Value} {stored : Option Value}
    (plain : holder.isPlain = true) (has : holder.stored? field = some stored) :
    Location.step intoTexts holder field.name = stored := by
  obtain ⟨entries, mapping, found⟩ := mapping_of_stored plain has
  rw [Location.step_of_mapping mapping, found]

private theorem step_of_element {index : ElementIndex} {holder : Value} {stored : Option Value} (tells : Tells token index)
    (has : holder.element? index = some stored) : Location.step intoTexts holder token = stored := by
  cases index with
  | position index =>
    obtain ⟨items, shape, rfl⟩ := Option.map_eq_some_iff.mp has
    exact Location.step_of_sequence shape tells
  | key key =>
    obtain ⟨entries, shape, rfl⟩ := Option.map_eq_some_iff.mp has
    obtain rfl : key = token := tells
    exact Location.step_of_mapping shape
  | afterLast => cases has

/-- In a document without objects other than mappings, the names of a pointer lead to what is told of it. -/
theorem names_lead (intoTexts : Bool) (reached : Reached container pointer) (plain : record.throughout isPlain = true)
    (reads : pointer.direct? record = some value) : Location.LeadsTo intoTexts ⟨pointer.names⟩ record value := by
  induction reached generalizing value with
  | root =>
    obtain rfl := Option.some.inj reads
    exact .inl ⟨rfl, plain⟩
  | @extend _ _ _ _ parent child _ above extended ih =>
    have reached := above.extend extended
    obtain ⟨rfl, notRoot, -⟩ := parent_of_extend extended
    cases child with
    | root => cases notRoot
    | property parent token target children =>
      obtain ⟨holder, stored, aboveReads, has, rfl⟩ := direct?_property.mp reads
      exact (ih aboveReads).snoc (settled_of_stored? has) (fun shape => step_of_stored shape has) (.inl rfl)
    | element parent token index =>
      rcases direct?_element.mp reads with ⟨aboveReads, rfl⟩ | ⟨collection, stored, aboveReads, has, rfl⟩
      · -- an unset collection reads as empty, and the document goes no further than to null
        exact (ih aboveReads).below_null token
      · exact (ih aboveReads).snoc (settled_of_element? has) (fun _ => step_of_element reached.tells has) (.inr rfl)

theorem name_of_property? {name : String} {target : Property} (opens : container.Opens schema place)
    (found : container.property? name = some target) : target.name = name := by
  obtain ⟨field, stored, rfl⟩ := Option.map_eq_some_iff.mp found
  have declared (stored : Entries.find? (some name) (Container.declaredEntries schema) = some field) : field.name = name := by
    obtain ⟨_, -, same⟩ := List.mem_map.mp (Entries.mem_of_find? stored)
    cases same
    rfl
  rw [opens.entries] at stored
  split at stored
  · rw [Entries.find?_put] at stored
    split at stored
    next same =>
      cases stored
      exact Option.some.inj same
    next => exact declared stored
  · exact declared stored

/-- The tokens of a pointer are the names on its way, if none of them stands for a property of a subtype. -/
theorem Firm.names_of_unqualified (firm : Firm container memory pointer)
    (unqualified : pointer.isQualified = false) : pointer.names = pointer.tokens := by
  induction firm with
  | root => rfl
  | @step _ _ _ parent child token _ above sturdy lasting step _ ih =>
    cases step with
    | position | entry => exact congrArg (· ++ [token]) (ih unqualified)
    | @property container target children _ awaited yields =>
      obtain ⟨has, _, _, inner⟩ := sturdy.at_hand awaited
      simp only [isQualified, Bool.or_eq_false_iff] at unqualified
      have named : target.name = token := by
        cases yields with
        | typeProperty _ found | own _ _ found => exact name_of_property? inner found
        | ofSubtype _ parts listed => simp [namesSubtype, parts, has, listed] at unqualified
      rw [names, tokens, ih unqualified.1, named]

theorem direct?_of_get {registry : Registry} {memory : Memory} (reached : Reached container pointer)
    (notDash : pointer.isDash = false) (plain : record.throughout isPlain = true)
    (got : pointer.get { registry, memory } record = .ok value) : pointer.direct? record = some value := by
  have data : record.throughout isData = true :=
    throughout_mono (fun value plain => by cases value <;> first | rfl | cases plain) record plain
  have read := mapError_eq_ok.mp got
  cases reads : pointer.direct? record with
  | some other =>
    cases (read_of_direct? reached reads).symm.trans read
    rfl
  | none =>
    obtain ⟨_, _, refused⟩ : Route.Mismatched (Route.read { registry, memory } (pointer.route {} ++ []) record) :=
      mismatched_of_nothing reached notDash data reads []
    rw [List.append_nil] at refused
    cases refused.symm.trans read

theorem location_of_pointer (pointer : Pointer) : pointer.location = .ok ⟨pointer.tokens⟩ := by
  rw [location, Location.parse, split_tokens]
  rfl

/-- Reading by the schema and reading by the document alone agree. A value other than null is found without the schema,
too, and whatever is found without it is what the schema reads there. This holds of the walk that goes into texts and of
the one that does not. -/
theorem schema_free_reading_agrees {container : Container} {schema : Schema} {place : Place} {memory : Memory}
    {pointer : Pointer} {record : Value} (opens : container.Opens schema place) (held : Held container memory pointer)
    (notDash : pointer.isDash = false) (unqualified : pointer.isQualified = false)
    (plain : record.throughout isPlain = true) :
    ∃ location, pointer.location = .ok location ∧
      ∀ (intoTexts : Bool) (registry : Registry) (present : Memory) (value : Value),
        pointer.get { registry, memory := present } record = .ok value →
          (value.isUnset = false → value.isMissing = false → location.walk intoTexts record = some value) ∧
          ∀ found, location.walk intoTexts record = some found → found = value := by
  refine ⟨_, location_of_pointer pointer, fun intoTexts registry present value got => ?_⟩
  have reads := direct?_of_get held.reached notDash plain got
  have leads := names_lead intoTexts held.reached plain reads
  rw [(held.firm opens).names_of_unqualified unqualified] at leads
  rcases leads with ⟨here, -⟩ | ⟨nowhere, nothing⟩
  · exact ⟨fun _ _ => here, fun found there => Option.some.inj (there.symm.trans here)⟩
  · constructor
    · intro present there
      simp [present, there] at nothing
    · intro found there
      cases nowhere.symm.trans there

/-- A note is found under its key, though a slash in the key is escaped in the text. -/
theorem note_is_found_without_schema :
    let context : Context := { registry := Orders.registry }
    let record : Value := .dict [("notes", .dict [("7/8", .text "urgent")])]
    let place : Place := { ground := .schema Orders.order.id }
    Orders.container.Opens Orders.order place ∧ record.throughout isPlain = true ∧
    ∃ pointer location, (parse context Orders.container true (.text "/notes/7~18")).outcome = .ok pointer ∧
      Held Orders.container {} pointer ∧ pointer.isDash = false ∧ pointer.isQualified = false ∧
      pointer.get context record = .ok (.text "urgent") ∧
      pointer.location = .ok location ∧ location.resolve record = some (.text "urgent") := by
  intro context record place
  have made : Container.ofSchema Orders.order "" (some place) = .ok Orders.container := rfl
  have opens := Container.opens_of_ofSchema made
  obtain ⟨pointer, parsed, nothing, notDash, unqualified, got⟩ : ∃ pointer,
      (parse context Orders.container true (.text "/notes/7~18")).outcome = .ok pointer ∧
      (parse context Orders.container true (.text "/notes/7~18")).opened = [] ∧ pointer.isDash = false ∧
      pointer.isQualified = false ∧ pointer.get context record = .ok (.text "urgent") := ⟨_, rfl, rfl, rfl, rfl, rfl⟩
  have held : Held Orders.container {} pointer :=
    .parsed Memory.lasting_of_empty parsed (by rw [nothing]; exact .refl _)
  have plain : record.throughout isPlain = true := rfl
  obtain ⟨location, told, agrees⟩ := schema_free_reading_agrees opens held notDash unqualified plain
  exact ⟨opens, plain, pointer, location, parsed, held, notDash, unqualified, got, told, (agrees false _ _ _ got).1 rfl rfl⟩

/-- The document has an entry under a token of the way that stands for a property of a subtype. -/
def HasQualifiedKey (tokens : List String) (document : Value) : Prop :=
  ∃ above token below entries, tokens = above ++ token :: below ∧ subtypeAndName? token ≠ none ∧
    (Location.resolve ⟨above⟩ document).bind entries? = some entries ∧ token ∈ Entries.keys entries

theorem HasQualifiedKey.snoc {tokens : List String} {document : Value} (has : HasQualifiedKey tokens document)
    (last : String) : HasQualifiedKey (tokens ++ [last]) document := by
  obtain ⟨above, token, below, entries, rfl, parts, held, within⟩ := has
  exact ⟨above, token, below ++ [last], entries, by simp, parts, held, within⟩

theorem subtype_of_namesSubtype (names : parent.namesSubtype token = true) : subtypeAndName? token ≠ none := by
  intro noParts
  simp [namesSubtype, noParts] at names

private theorem Firm.reached (firm : Firm container memory pointer) : Reached container pointer := by
  induction firm with
  | root => exact .root
  | @step registry former dashAllowed parent child token _ _ _ _ step _ ih =>
    have extended : (extend { registry, memory := former } .null dashAllowed parent token).outcome = .ok child := by
      rw [extend_eq_step.mpr step]
    exact ih.extend extended

/-- The tokens of a pointer to what only a subtype has lead nowhere, but for keys that are such tokens themselves. -/
theorem Firm.key_of_qualified (firm : Firm container memory pointer) (plain : record.throughout isPlain = true)
    (reads : pointer.direct? record = some value) (qualified : pointer.isQualified = true)
    (reached : Location.walk intoTexts ⟨pointer.tokens⟩ record = some found) :
    HasQualifiedKey pointer.tokens record := by
  induction firm generalizing value found with
  | root => cases qualified
  | @step _ _ _ parent child token _ above sturdy lasting step _ ih =>
    cases step with
    | position | entry =>
      rw [tokens, Location.walk_snoc, Option.bind_eq_some_iff] at reached
      obtain ⟨holder, higher, -⟩ := reached
      rcases direct?_element.mp reads with ⟨aboveReads, -⟩ | ⟨_, _, aboveReads, -⟩ <;>
        exact (ih aboveReads qualified higher).snoc token
    | @property container target children _ awaited yields =>
      rw [tokens, Location.walk_snoc, Option.bind_eq_some_iff] at reached
      obtain ⟨holder, higher, here⟩ := reached
      obtain ⟨other, stored, aboveReads, has, -⟩ := direct?_property.mp reads
      cases higherQualified : parent.isQualified with
      | true => exact (ih aboveReads higherQualified higher).snoc token
      | false =>
        have names : parent.namesSubtype token = true := by simpa [isQualified, higherQualified] using qualified
        have there (intoTexts : Bool) : Location.walk intoTexts ⟨parent.tokens⟩ record = some other ∧
            other.throughout isPlain = true := by
          have leads := names_lead intoTexts above.reached plain aboveReads
          rw [above.names_of_unqualified higherQualified] at leads
          refine leads.resolve_right fun nowhere => ?_
          simp [settled_of_stored? has] at nowhere
        cases (there intoTexts).1.symm.trans higher
        obtain ⟨entries, mapping, -⟩ := mapping_of_stored (check_of_throughout (there false).2) has
        rw [Location.step_of_mapping mapping] at here
        have held : (Location.resolve ⟨parent.tokens⟩ record).bind entries? = some entries := by
          rw [Location.resolve, (there false).1]
          exact mapping
        exact ⟨parent.tokens, token, [], entries, rfl, subtype_of_namesSubtype names, held,
          List.mem_map_of_mem (Entries.mem_of_find? here)⟩

/-- What only a subtype has is found without the schema by names alone. The location of its pointer has the subtype in a
token, and leads to anything only if the document has such a token for a key. -/
theorem qualified_location_leads_nowhere {container : Container} {schema : Schema} {place : Place} {memory : Memory}
    {pointer : Pointer} {record : Value} (opens : container.Opens schema place) (held : Held container memory pointer)
    (notDash : pointer.isDash = false) (qualified : pointer.isQualified = true)
    (plain : record.throughout isPlain = true) :
    ∃ location, pointer.location = .ok location ∧
      ∀ (intoTexts : Bool) (registry : Registry) (present : Memory) (value : Value),
        pointer.get { registry, memory := present } record = .ok value →
          value.isUnset = false → value.isMissing = false →
          Location.walk intoTexts ⟨pointer.names⟩ record = some value ∧
          ∀ found, location.walk intoTexts record = some found → HasQualifiedKey pointer.tokens record := by
  refine ⟨_, location_of_pointer pointer, fun intoTexts registry present value got isSet there => ?_⟩
  have reads := direct?_of_get held.reached notDash plain got
  refine ⟨?_, fun found reached => (held.firm opens).key_of_qualified plain reads qualified reached⟩
  rcases names_lead intoTexts held.reached plain reads with ⟨here, -⟩ | ⟨-, nothing⟩
  · exact here
  · simp [isSet, there] at nothing

def openedEvent : Value :=
  .dict [("events", .list [.dict [("kind", .text "OPENED"), ("byWho", .text "Smith")]])]

theorem opener_is_found_by_names :
    let context : Context := { registry := Orders.registry }
    let opening := parse context Orders.container true (.text "/events/0/OPENED:byWho")
    let place : Place := { ground := .schema Orders.order.id }
    Orders.container.Opens Orders.order place ∧ openedEvent.throughout isPlain = true ∧
    ∃ pointer, opening.outcome = .ok pointer ∧ Held Orders.container (Memory.rememberAll {} opening.opened) pointer ∧
      pointer.isDash = false ∧ pointer.isQualified = true ∧ pointer.get context openedEvent = .ok (.text "Smith") ∧
      pointer.names = ["events", "0", "byWho"] ∧ Location.resolve ⟨pointer.names⟩ openedEvent = some (.text "Smith") := by
  intro context opening place
  have made : Container.ofSchema Orders.order "" (some place) = .ok Orders.container := rfl
  have opens := Container.opens_of_ofSchema made
  obtain ⟨pointer, parsed, notDash, qualified, got, names⟩ : ∃ pointer, opening.outcome = .ok pointer ∧
      pointer.isDash = false ∧ pointer.isQualified = true ∧ pointer.get context openedEvent = .ok (.text "Smith") ∧
      pointer.names = ["events", "0", "byWho"] := ⟨_, rfl, rfl, rfl, rfl, rfl⟩
  have held := held_of_parse Memory.lasting_of_empty parsed
  have plain : openedEvent.throughout isPlain = true := rfl
  obtain ⟨_, -, leads⟩ := qualified_location_leads_nowhere opens held notDash qualified plain
  exact ⟨opens, plain, pointer, parsed, held, notDash, qualified, got, names, (leads false _ _ _ got rfl rfl).1⟩

/-- Who opened an event is read by the schema, and the location of the same pointer leads nowhere. -/
theorem opener_is_not_at_its_location :
    let context : Context := { registry := Orders.registry }
    ∃ pointer location, (parse context Orders.container true (.text "/events/0/OPENED:byWho")).outcome = .ok pointer ∧
      pointer.isDash = false ∧ pointer.isQualified = true ∧ openedEvent.throughout isPlain = true ∧
      pointer.get context openedEvent = .ok (.text "Smith") ∧
      pointer.location = .ok location ∧ location.resolve openedEvent = none := by
  intro context
  exact ⟨_, _, rfl, rfl, rfl, rfl, rfl, rfl, rfl⟩

end Pointer
end RecordAddress
