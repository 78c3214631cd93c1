import RecordAddress.Proofs.Patterns
import RecordAddress.Proofs.References

/-! Names as tokens. No name that a container can have, wherever it comes from, has a character in it that means something
in pointers or in paths. So names are written as they are, and a token that tells a subtype and a property apart is never
the name of a property. -/

namespace RecordAddress
variable {known : Schema → Prop} {registry : Registry} {memory : Memory} {schema : Schema} {container inner : Container}
  {property : Property}

namespace Token
variable {token : String}

/-- Whether nothing in the token means something in a pointer or in a path. -/
def IsPlain (token : String) : Prop :=
  ∀ char ∈ ['/', '~', ':', '.'], char ∉ token.toList

theorem IsPlain.escape_eq (plain : IsPlain token) : escape token = token := by
  apply escape_of_plain
  intro char within
  constructor
  · rintro rfl
    exact plain '~' (by simp) within
  · rintro rfl
    exact plain '/' (by simp) within

theorem isPlain_of_name (free : token = "" ∨ MemberName.allowed token = true) : IsPlain token := by
  intro char special
  simp only [List.mem_cons, List.not_mem_nil, or_false] at special
  refine MemberName.excluded_if_named ?_ free
  rcases special with rfl | rfl | rfl | rfl <;> rfl

end Token

namespace Container

/-- A container that can be obtained of known classes: one that is opened of a class, at any path, one that is nested in
a property or a subtype of another one, in a copy of these or in a declared field on its own, and one that other calls
left behind. What is nested need not be opened anew if something that was obtained before stands in its place. -/
inductive Obtained (known : Schema → Prop) : Container → Prop
  | opened {schema : Schema} {path : String} {place : Option Place} {container : Container} : known schema →
      ofSchema schema path place = .ok container → Obtained known container
  | nested {registry : Registry} {memory : Memory} {outer inner : Container} {segment : Segment} {property copy : Property} :
      Obtained known outer → outer.at? segment = some property → copy.field.content = property.field.content →
      Session.Knows known registry → (∀ place other, memory.known? place = some other → Obtained known other) →
      ({ registry, memory } : Context).nested copy = .ok (some inner) → Obtained known inner
  | declared {registry : Registry} {memory : Memory} {schema : Schema} {field : Field Schema} {property : Property}
      {inner : Container} : known schema → field ∈ schema.fields → property.field.content = field.content →
      Session.Knows known registry → (∀ place other, memory.known? place = some other → Obtained known other) →
      ({ registry, memory } : Context).nested property = .ok (some inner) → Obtained known inner
  | remembered {memory : Memory} {place : Place} {container : Container} : memory.ArisesFrom known →
      memory.known? place = some container → Obtained known container

/-- A container of a known schema that need not stand anywhere. -/
def DrawnFrom (known : Schema → Prop) (container : Container) : Prop :=
  ∃ schema, known schema ∧ container.Draws schema

/-- What a known schema refers to is drawn from known schemas again. -/
theorem drawnFrom_of_nested (closed : Schema.Closed known) (isKnown : known schema)
    (refers : ∀ reference, property.field.content = .nested reference → schema.Refers reference)
    (knows : Session.Knows known registry) (before : ∀ place other, memory.known? place = some other → other.DrawnFrom known)
    (opened : ({ registry, memory } : Context).nested property = .ok (some inner)) : inner.DrawnFrom known := by
  obtain ⟨reference, content, outcome⟩ := Context.opener_of_nested opened
  have among := closed.refers schema reference isKnown (refers reference content)
  rcases Context.known_of_opener knows among outcome with ⟨place, -, standing⟩ | ⟨target, targetKnown, made⟩
  · exact before place inner standing
  · exact ⟨target, targetKnown, draws_of_ofSchema made⟩

theorem Obtained.drawnFrom (closed : Schema.Closed known) (obtained : container.Obtained known) :
    container.DrawnFrom known := by
  induction obtained with
  | opened isKnown made => exact ⟨_, isKnown, draws_of_ofSchema made⟩
  | nested _ found same knows _ opened ih before =>
    obtain ⟨schema, isKnown, draws⟩ := ih
    refine drawnFrom_of_nested closed isKnown (fun reference content => ?_) knows before opened
    exact draws.refers_of_at? found (same.symm.trans content)
  | declared isKnown within same knows _ opened before =>
    refine drawnFrom_of_nested closed isKnown (fun reference content => ?_) knows before opened
    exact .field within (same.symm.trans content)
  | remembered arises standing =>
    obtain ⟨schema, _, isKnown, opens⟩ := arises.keeps closed _ _ standing
    exact ⟨schema, isKnown, opens.draws⟩

namespace Draws
variable (draws : container.Draws schema)
include draws

theorem tellsType_of_colon {token : String} (colon : ':' ∈ token.toList) : Pointer.tellsType {} container token = .ok false := by
  rw [Pointer.tellsType_of_draws draws, draws.isPolymorphic]
  cases polymorphic : schema.isPolymorphic with
  | false => rfl
  | true =>
    have other : schema.typeProperty ≠ token := by
      rintro rfl
      exact MemberName.no_colon_if_named (draws.allowed_of_type polymorphic) colon
    simp [other]

variable (wellNamed : schema.WellNamed)
include wellNamed

/-- Properties and subtypes have names that are allowed, unless they are empty. -/
theorem name_of_member (within : property ∈ container.properties ++ container.subtypes) :
    property.name = "" ∨ MemberName.allowed property.name = true := by
  rcases List.mem_append.mp within with own | variant
  · obtain ⟨entry, stored, rfl⟩ := List.mem_map.mp own
    exact (draws.allowed_of_entry wellNamed stored).2
  · obtain ⟨subtype, listed, rfl⟩ := List.mem_map.mp variant
    exact .inr (wellNamed.subtype_allowed subtype (draws.listed_of_variant listed).2)

theorem property?_of_colon {token : String} (colon : ':' ∈ token.toList) : container.property? token = none := by
  cases found : container.property? token with
  | none => rfl
  | some target =>
    obtain ⟨field, stored, -⟩ := Option.map_eq_some_iff.mp found
    obtain ⟨named, allowed⟩ := draws.allowed_of_entry wellNamed (Entries.mem_of_find? stored)
    obtain rfl : token = field.name := Option.some.inj named
    exact absurd colon (MemberName.no_colon_if_named allowed)

theorem hasProperty_of_colon {token : String} (colon : ':' ∈ token.toList) :
    ({} : Amendments).hasProperty container token = .ok false := by
  simp only [Amendments.hasProperty, Amendments.ask, Amendments.setAt?_unchanged, draws.property?_of_colon wellNamed colon]
  rfl

/-- A token with a colon in it leads to properties of subtypes alone. -/
theorem specific_of_colon {token : String} {target : Property} (colon : ':' ∈ token.toList)
    (looked : (Pointer.lookUp { registry, memory } container token).outcome = .ok (some target)) :
    ∃ kind own property specific, token = kind ++ ":" ++ own ∧ container.subtype? kind = some property ∧
      ({ registry, memory } : Context).nested property = .ok (some specific) ∧ specific.property? own = some target := by
  rcases Pointer.found_of_lookUp looked with found | ⟨kind, own, property, specific, parts, listed, opened, found⟩
  · cases (draws.property?_of_colon wellNamed colon).symm.trans found
  · exact ⟨kind, own, property, specific, (Pointer.subtypeAndName?_eq_some.mp parts).1, listed, opened, found⟩

end Draws
end Container

namespace Session

/-- Names are what the rule takes up from their start to their end: letters, digits, hyphens and underscores, with a
letter or digit at both ends. So nothing in the name of a field, of a type property or of a subtype means something in a
pointer, whichever way it came into a container. A token of a subtype and a property is no name then, and leads to no
property but one of the subtype. -/
theorem names_are_plain_tokens (rootLabel : String) (sources : List ClassSource) :
    (∀ name : String, MemberName.rule.MatchesFully name ↔
      name ≠ "" ∧ (∀ c ∈ name.toList, c.isAlphanum = true ∨ c = '-' ∨ c = '_') ∧
        (∀ c, name.toList.head? = some c → c.isAlphanum = true) ∧
        ∀ c, name.toList.getLast? = some c → c.isAlphanum = true) ∧
    (∀ name : String, Field.checkName name = .ok () ↔ name = "" ∨ MemberName.rule.MatchesFully name) ∧
    ∀ container : Container, container.Obtained (Class.Outlines (({ rootLabel } : Session).made sources)) →
      (∀ property ∈ container.properties ++ container.subtypes,
        (property.name = "" ∨ MemberName.rule.MatchesFully property.name) ∧ Token.IsPlain property.name ∧
          Token.escape property.name = property.name) ∧
      (container.isPolymorphic = true →
        (∃ name, ({} : Amendments).typeProperty container = .ok (.text name) ∧ Token.IsPlain name ∧
          Token.escape name = name) ∧
        ∀ subtype name : String,
          Pointer.tellsType {} container (subtype ++ ":" ++ name) = .ok false ∧
          ({} : Amendments).hasProperty container (subtype ++ ":" ++ name) = .ok false ∧
          ∀ (registry : Registry) (memory : Memory) target,
            (Pointer.lookUp { registry, memory } container (subtype ++ ":" ++ name)).outcome = .ok (some target) →
            ∃ kind own property specific, subtype ++ ":" ++ name = kind ++ ":" ++ own ∧
              container.subtype? kind = some property ∧
              ({ registry, memory } : Context).nested property = .ok (some specific) ∧
              specific.property? own = some target) := by
  have closed := outlines_closed rootLabel sources
  refine ⟨?rule, ?check, ?containers⟩
  case rule =>
    intro name
    rw [MemberName.matchesFully_rule, MemberName.allowed_iff]
    simp only [MemberName.isInner, Bool.or_eq_true, decide_eq_true_eq, or_assoc]
  case check =>
    intro name
    rw [MemberName.matchesFully_rule]
    exact Class.checkName_eq_ok
  case containers =>
    intro container obtained
    obtain ⟨schema, isKnown, draws⟩ := obtained.drawnFrom closed
    have wellNamed := closed.wellNamed schema isKnown draws.noMixin
    refine ⟨?_, fun polymorphic => ⟨?_, fun subtype name => ?_⟩⟩
    · intro property within
      have free := draws.name_of_member wellNamed within
      have plain := Token.isPlain_of_name free
      exact ⟨free.imp id MemberName.matchesFully_rule.mpr, plain, plain.escape_eq⟩
    · have plain := Token.isPlain_of_name (draws.allowed_of_type (draws.isPolymorphic.symm.trans polymorphic))
      exact ⟨schema.typeProperty, draws.typeProperty_unchanged polymorphic, plain, plain.escape_eq⟩
    · have colon : ':' ∈ (subtype ++ ":" ++ name).toList := by simp
      exact ⟨draws.tellsType_of_colon colon, draws.hasProperty_of_colon wellNamed colon,
        fun _ _ _ looked => draws.specific_of_colon wellNamed colon looked⟩

/-- Events of which one is opened by someone. Who that is stands in a property of the subtype and in no other. -/
theorem opened_events_tell_by_whom :
    ∃ cls container target, cls ∈ ({ rootLabel := "Event" } : Session).made kindsOfEvents ∧
      Container.ofSchema cls.outline "events." none = .ok container ∧
      container.Obtained (Class.Outlines (({ rootLabel := "Event" } : Session).made kindsOfEvents)) ∧
      (container.properties ++ container.subtypes).map Property.name = ["happenedOn", "kind", "OPENED"] ∧
      (∀ property ∈ container.properties ++ container.subtypes, Token.escape property.name = property.name) ∧
      container.isPolymorphic = true ∧ ({} : Amendments).hasProperty container "OPENED:byWho" = .ok false ∧
      (Pointer.lookUp {} container "OPENED:byWho").outcome = .ok (some target) ∧
      ∃ kind own property specific, "OPENED:byWho" = kind ++ ":" ++ own ∧ container.subtype? kind = some property ∧
        ({} : Context).nested property = .ok (some specific) ∧ specific.property? own = some target := by
  have computed : ((({ rootLabel := "Event" } : Session).made kindsOfEvents)[1]?.any fun cls =>
      (Container.ofSchema cls.outline "events." none).toOption.any fun container =>
        (Pointer.lookUp {} container "OPENED:byWho").outcome.toOption.any fun found => found.any fun _ =>
          container.isPolymorphic = true ∧
            (container.properties ++ container.subtypes).map Property.name = ["happenedOn", "kind", "OPENED"]) = true := by
    decide +kernel
  simp only [Option.any_eq_true, decide_eq_true_eq] at computed
  obtain ⟨cls, made, container, built, _, found, target, rfl, polymorphic, names⟩ := computed
  have within := List.mem_of_getElem? made
  have opened := toOption_eq_some.mp built
  have looked := toOption_eq_some.mp found
  have obtained : container.Obtained (Class.Outlines (({ rootLabel := "Event" } : Session).made kindsOfEvents)) :=
    .opened (.inr ⟨cls, within, rfl⟩) opened
  obtain ⟨-, -, plain⟩ := names_are_plain_tokens "Event" kindsOfEvents
  obtain ⟨plainNames, apart⟩ := plain container obtained
  obtain ⟨-, absent, tells⟩ := (apart polymorphic).2 "OPENED" "byWho"
  exact ⟨cls, container, target, within, opened, obtained, names, fun property has => (plainNames property has).2.2,
    polymorphic, absent, looked, tells {} {} target looked⟩

end Session
end RecordAddress
