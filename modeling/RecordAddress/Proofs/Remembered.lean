import RecordAddress.Proofs.Acceptance
import RecordAddress.Proofs.Laziness
import RecordAddress.Proofs.Orders

/-! Parsing in sessions. A container that was opened once is met again, so the parser follows what is remembered.
As long as no record type changes hands, that is what the declared fields tell now. -/

namespace RecordAddress
variable {registry : Registry} {memory : Memory} {known : Schema → Prop} {root schema : Schema} {container : Container}
  {place : Place}

/-- The genuine container of a place was opened from the schema that stands there. -/
theorem Stands.opens_of_genuine (complete : root.Complete registry) (distinct : Distinct known) (isKnown : known root)
    (stands : Stands registry root place schema) (genuine : container.Genuine registry known place) :
    container.Opens schema place := by
  induction stands generalizing container with
  | root =>
    generalize start : ({ ground := .schema root.id } : Place) = place at genuine
    cases genuine with
    | @root other _ otherKnown opened =>
      have ids : root.id = other.id := by simpa using start
      obtain rfl := distinct _ _ isKnown otherKnown ids
      exact Container.opens_of_ofSchema opened
    | nested => exact absurd start.symm (Place.below_ne_ground _ _ _)
  | @property above holder target field reference stands declared content found ih =>
    generalize end_ : above.below (.property field.name) = place at genuine
    cases genuine with
    | root => exact absurd end_ (Place.below_ne_ground _ _ _)
    | @nested _ outer _ _ property _ _ outerGenuine has otherContent otherFound opened =>
      obtain ⟨rfl, rfl⟩ := Place.below_inj end_
      have listed := ((ih outerGenuine).property?_eq (complete.wellNamed stands.reaches)).mpr
        (.inl ⟨field, declared, rfl, rfl⟩)
      cases listed.symm.trans has
      cases content.symm.trans otherContent
      cases found.symm.trans otherFound
      exact Container.opens_of_ofSchema opened
  | @subtype above holder target subtype reference stands listed found ih =>
    generalize end_ : above.below (.subtype subtype) = place at genuine
    cases genuine with
    | root => exact absurd end_ (Place.below_ne_ground _ _ _)
    | @nested _ outer _ _ property _ _ outerGenuine has content otherFound opened =>
      obtain ⟨rfl, rfl⟩ := Place.below_inj end_
      have offered := ((ih outerGenuine).subtype?_eq (complete.wellNamed stands.reaches)).mpr ⟨reference, listed, rfl⟩
      cases offered.symm.trans has
      cases content
      cases found.symm.trans otherFound
      exact Container.opens_of_ofSchema opened

theorem Memory.Genuine.faithful (complete : root.Complete registry) (distinct : Distinct known) (isKnown : known root)
    (genuine : memory.Genuine registry known) : memory.Faithful registry root :=
  fun place _ container stands met => stands.opens_of_genuine complete distinct isKnown (genuine place container met)

namespace Session
variable {session : Session} {steps : List Step}

/-- The schemas that a session has under its labels or in its registry. -/
def Lists (session : Session) (schema : Schema) : Prop :=
  (∃ entry ∈ session.labels, entry.2.schema? = some schema) ∨ ∃ entry ∈ session.context.registry.entries, entry.2 = schema

theorem Sound.known_of_lists (sound : session.Sound known) (listed : session.Lists schema) : known schema := by
  rcases listed with ⟨entry, within, offered⟩ | ⟨entry, within, rfl⟩
  · obtain ⟨rfl, -⟩ := Class.schema_of_schema? offered
    exact sound.labels entry within
  · exact sound.registry entry within

/-- What a session remembers is not outdated as long as the session is consistent. -/
theorem Consistent.faithful (consistent : session.Consistent) (listed : session.Lists schema)
    (complete : schema.Complete session.context.registry) :
    session.context.memory.Faithful session.context.registry schema := by
  obtain ⟨known, sound⟩ := consistent
  exact sound.memory.faithful complete sound.distinct (sound.known_of_lists listed)

theorem Consistent.after_steps (consistent : session.Consistent) (plain : ∀ next ∈ steps, next.isPlain = true)
    (steady : Steady steps session) : (session.visiting steps).Consistent := by
  induction steps generalizing session with
  | nil => exact consistent
  | cons next rest ih =>
    obtain ⟨keeps, steady⟩ := steady
    have first := plain next List.mem_cons_self
    exact ih (step_consistent consistent first keeps) (fun other within => plain other (List.mem_cons_of_mem _ within)) steady

end Session

/-! Record types that refer to each other by name alone, for instances. -/

/-- Whether a class has no subtypes, and nothing nested but record types that are registered. -/
def Schema.isSimple (registry : Registry) (schema : Schema) : Bool :=
  !schema.isMixin && schema.subtypes.isEmpty && !schema.hidden.contains .container &&
    decide (schema.fields.map Field.name).Nodup &&
    schema.fields.all fun field => (field.name = "" || MemberName.allowed field.name) &&
      match field.content with
      | .scalar _ => true
      | .nested (.named recordType) => (registry.find? (.text recordType)).isSome
      | .nested (.schema _) => false

theorem Registry.mem_of_find? {recordType : Value} (found : registry.find? recordType = some schema) :
    ∃ entry ∈ registry.entries, entry.2 = schema := by
  obtain ⟨entry, within, rfl⟩ := Option.map_eq_some_iff.mp found
  exact ⟨entry, List.mem_of_find?_eq_some within, rfl⟩

theorem Schema.complete_of_simple (simple : ∀ entry ∈ registry.entries, entry.2.isSimple registry = true)
    (registered : ∃ entry ∈ registry.entries, entry.2 = schema) : schema.Complete registry := by
  refine .of_closed (fun member => ∃ entry ∈ registry.entries, entry.2 = member) registered ?_ ?_ ?_
  all_goals
    rintro _ ⟨entry, within, rfl⟩
    have holds := simple entry within
    simp only [isSimple, Bool.and_eq_true, Bool.not_eq_true', List.isEmpty_iff, decide_eq_true_eq, List.all_eq_true] at holds
    obtain ⟨⟨⟨⟨noMixin, noSubtypes⟩, shown⟩, distinct⟩, fields⟩ := holds
  · refine ⟨distinct, ?_, by simp [isPolymorphic, noSubtypes], by simp [noSubtypes], by simp [noSubtypes]⟩
    intro field declared
    simpa using (fields field declared).1
  · intro path place
    simp only [Container.ofSchema, shown, noMixin, isPolymorphic, noSubtypes, List.isEmpty_nil, Bool.not_true,
      Bool.false_eq_true, ite_false]
    exact ⟨_, rfl⟩
  · intro reference refers
    cases refers with
    | subtype listed => simp [noSubtypes] at listed
    | @field field _ declared content =>
      have resolves := (fields field declared).2
      rw [content] at resolves
      cases reference with
      | schema => cases resolves
      | named recordType =>
        obtain ⟨target, found⟩ := Option.isSome_iff_exists.mp resolves
        exact ⟨target, Registry.mem_of_find? found, by rw [Registry.target, found]; rfl⟩

namespace Pointer
open Session

/-- The parser accepts exactly the language of pointers. A text is accepted if it is empty or starts with a
slash, all of its tildes open escapes, and the declared fields derive its tokens. What is remembered of containers may
not be outdated for that, and it never is in sessions in which no record type changes hands. -/
theorem parse_accepts_language :
    (∀ {registry : Registry} {memory : Memory} {schema : Schema} {container : Container},
      schema.Complete registry → memory.Faithful registry schema →
      ({ registry, memory } : Context).root schema = .ok container → ∀ (dashAllowed : Bool) (text : String),
      (∀ token ∈ Token.unescaped text,
        ArrayIndex.isDecimal token.toList = true → token.toList.length ≤ ArrayIndex.digitLimit) →
      ((∃ pointer, (parse { registry, memory } container dashAllowed (.text text)).outcome = .ok pointer) ↔
        (text = "" ∨ text.toList.head? = some '/') ∧ Token.WellEscaped text ∧
        (Node.object schema).Derives registry dashAllowed (Token.unescaped text))) ∧
    ∀ {rootLabel : String} {steps : List Session.Step}, (∀ next ∈ steps, next.isPlain = true) →
      Session.Steady steps { rootLabel } → ∀ {schema : Schema},
      let session := ({ rootLabel } : Session).visiting steps
      session.Lists schema → schema.Complete session.context.registry →
        session.context.memory.Faithful session.context.registry schema := by
  refine ⟨fun complete faithful opened => accepts_language complete faithful opened, ?_⟩
  intro rootLabel steps plain steady schema session listed complete
  exact ((Session.consistent_start rootLabel).after_steps plain steady).faithful listed complete

/-- An address, which is looked at before a place takes its record type over. -/
def addressed : List Session.Step := [
  declaring "Address" [("street", .scalar "string" "" "")],
  declaring "Person" [("address", .nested (.recordType "Address") "" "")],
  parsed .root "/address/street"]

def replaced : Session.Step :=
  .define { name := "Place", label := "Place", bases := [Schema.base.name], isMixin := false
            fields := [("town", .scalar "string" "" "")], options := some { recordType := some (some "Address") } }

theorem nested_event_is_accepted :
    (Orders.order.Complete Orders.registry ∧ Memory.Faithful Orders.registry Orders.order {} ∧
      ({ registry := Orders.registry } : Context).root Orders.order = .ok Orders.container ∧
      ∃ pointer, (parse { registry := Orders.registry } Orders.container true
        (.text "/parent/events/0/OPENED:byWho")).outcome = .ok pointer) ∧
    ∃ schema, let session := ({ rootLabel := "Person" } : Session).visiting addressed
      Steady addressed { rootLabel := "Person" } ∧ session.Lists schema ∧ schema.Complete session.context.registry ∧
      session.context.memory.Faithful session.context.registry schema := by
  obtain ⟨accepts, stays⟩ := parse_accepts_language
  constructor
  · have tokens : Token.unescaped "/parent/events/0/OPENED:byWho" = ["parent", "events", "0", "OPENED:byWho"] := rfl
    have short : ∀ token ∈ Token.unescaped "/parent/events/0/OPENED:byWho",
        ArrayIndex.isDecimal token.toList = true → token.toList.length ≤ ArrayIndex.digitLimit := by
      rw [tokens]
      decide
    have accepts := accepts Orders.order_complete Memory.faithful_of_empty rfl true _ short
    refine ⟨Orders.order_complete, Memory.faithful_of_empty, rfl, accepts.mpr ⟨.inr rfl, ?_, ?_⟩⟩
    · exact Token.badEscape?_eq_none.mp rfl
    · have parent : Orders.order.Offers Orders.registry "parent" (.object Orders.order) :=
        Orders.offers (.tail _ (.tail _ (.tail _ (.tail _ (.head _))))) (.single (.nested rfl))
      have events : Orders.order.Offers Orders.registry "events" (.array (.nested (.schema Orders.event))) :=
        Orders.offers (.tail _ (.tail _ (.tail _ (.head _)))) .array
      have byWho : Orders.opened.Offers Orders.registry "byWho" .leaf :=
        Orders.offers (.head _) (.single .scalar)
      have listed : ("OPENED", .schema Orders.opened) ∈ Orders.event.subtypes := .head _
      rw [tokens]
      exact .go (.property parent) (.go (.property events) (.go (.position rfl (.nested rfl))
        (.go (.subtypeProperty listed rfl byWho (by decide)) .stop)))
  · have steady : Steady addressed { rootLabel := "Person" } := steady_of_isSteady (by decide +kernel)
    have computed : (let registry := (({ rootLabel := "Person" } : Session).visiting addressed).context.registry
        (registry.find? (.text "Person")).any fun _ => registry.entries.all (·.2.isSimple registry)) = true := by
      decide +kernel
    simp only [Option.any_eq_true, List.all_eq_true] at computed
    obtain ⟨schema, found, simple⟩ := computed
    have registered := Registry.mem_of_find? found
    have complete := Schema.complete_of_simple simple registered
    exact ⟨schema, steady, .inr registered, complete, stays (by decide) steady (.inr registered) complete⟩

/-- Once the record type of an address has changed hands, the parser still follows the address that it met before,
and not what the declared fields tell by then. -/
theorem former_address_is_followed :
    let session := ({ rootLabel := "Person" } : Session).visiting (addressed ++ [replaced])
    let context : Context := { registry := session.context.registry, memory := session.context.memory }
    ∃ schema container, session.Lists schema ∧ schema.Complete context.registry ∧ context.root schema = .ok container ∧
      (∀ token ∈ Token.unescaped "/address/town",
        ArrayIndex.isDecimal token.toList = true → token.toList.length ≤ ArrayIndex.digitLimit) ∧
      ¬ ((∃ pointer, (parse context container true (.text "/address/town")).outcome = .ok pointer) ↔
        ("/address/town" = "" ∨ "/address/town".toList.head? = some '/') ∧ Token.WellEscaped "/address/town" ∧
        (Node.object schema).Derives context.registry true (Token.unescaped "/address/town")) := by
  intro session context
  let anew : Context := { registry := context.registry }
  have computed : ((context.registry.find? (.text "Person")).any fun schema =>
      (context.root schema).toOption.any fun container => (anew.root schema).toOption.any fun fresh =>
        context.registry.entries.all (·.2.isSimple context.registry) &&
        (parse anew fresh true (.text "/address/town")).outcome.toOption.isSome &&
        (parse context container true (.text "/address/town")).outcome.toOption.isNone) = true := by
    decide +kernel
  simp only [Option.any_eq_true, Bool.and_eq_true, List.all_eq_true, toOption_eq_some] at computed
  obtain ⟨schema, found, container, opened, fresh, openedAnew, ⟨simple, accepted⟩, refused⟩ := computed
  have registered := Registry.mem_of_find? found
  have complete := Schema.complete_of_simple simple registered
  have short : ∀ token ∈ Token.unescaped "/address/town",
      ArrayIndex.isDecimal token.toList = true → token.toList.length ≤ ArrayIndex.digitLimit := by
    decide
  refine ⟨schema, container, .inr registered, complete, opened, short, fun accepts => ?_⟩
  -- with nothing remembered the text is accepted, so the declared fields derive its tokens
  obtain ⟨pointer, parsed⟩ := Option.isSome_iff_exists.mp accepted
  have derives := (accepts_language complete Memory.faithful_of_empty openedAnew true _ short).mp
    ⟨pointer, toOption_eq_some.mp parsed⟩
  obtain ⟨former, follows⟩ := accepts.mpr derives
  rw [follows] at refused
  cases refused

end Pointer
end RecordAddress
