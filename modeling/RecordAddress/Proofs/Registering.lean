import Mathlib.Data.List.Induction
import RecordAddress.Proofs.Defining

/-! The registry after any definitions. It is a dictionary of the classes that were made, under their record types:
the last class of a record type is found, and the first one decides on the place. -/

namespace RecordAddress

namespace Entries
variable {α κ : Type} [DecidableEq κ]

/-- Keys are kept in the order in which they come first. -/
theorem keys_ofList (pairs : List (κ × α)) : (ofList pairs).keys = (pairs.map Prod.fst).eraseDups := by
  induction pairs using List.reverseRecOn with
  | nil => rfl
  | append_singleton pairs pair ih =>
    rw [ofList_snoc, keys_put, ih, List.map_append, List.eraseDups_append]
    by_cases within : pair.1 ∈ pairs.map Prod.fst
    · simp [List.removeAll, within]
    · simp [List.removeAll, List.mem_eraseDups, List.eraseDups_cons, within]

end Entries

namespace Registry
variable {held : Entries Schema} {recordType : String}

/-- A registry under texts. -/
def ofEntries (held : Entries Schema) : Registry :=
  ⟨held.map fun entry => (.text entry.1, entry.2)⟩

theorem find?_ofEntries : (ofEntries held).find? (.text recordType) = Entries.find? recordType held := by
  induction held with
  | nil => rfl
  | cons entry rest ih =>
    obtain ⟨name, schema⟩ := entry
    simp only [find?, ofEntries, List.map_cons, List.find?_cons, Value.isSame] at ih ⊢
    rw [Entries.find?_cons, ← ih]
    by_cases same : name = recordType <;> simp [same]

theorem recordTypes_ofEntries : (ofEntries held).recordTypes = held.keys.map .text := by
  simp [recordTypes, ofEntries, Entries.keys]

theorem insert_ofEntries (distinct : held.keys.Nodup) (target : Schema) :
    (ofEntries held).insert (.text recordType) target = ofEntries (Entries.put recordType target held) := by
  have known : ((ofEntries held).find? (.text recordType)).isSome = true ↔ recordType ∈ held.keys := by
    rw [find?_ofEntries, Option.isSome_iff_ne_none, Ne, Entries.find?_eq_none, not_not]
  by_cases present : recordType ∈ held.keys
  · rw [insert, if_pos (known.mpr present), Entries.put_of_present distinct present]
    simp only [ofEntries, List.map_map]
    refine congrArg Registry.mk (List.map_congr_left fun entry _ => ?_)
    by_cases same : entry.1 = recordType <;> simp [Value.isSame, same]
  · rw [insert, if_neg (mt known.mp present), Entries.put_of_absent present]
    simp [ofEntries]

end Registry

namespace Session
variable {session : Session} {rootLabel : String} {classes : List Class}

/-- The schemas among some classes, under their record types. -/
def registrations (classes : List Class) : List (String × Schema) :=
  (classes.filterMap Class.schema?).map fun schema => (schema.recordType, schema)

theorem Defines.registry_eq (defines : Defines rootLabel classes session) :
    session.context.registry = .ofEntries (Entries.ofList (registrations classes)) := by
  induction defines with
  | start => rfl
  | failed _ ih => exact ih
  | @made classes session source cls _ _ ih =>
    have same : (session.quiet.admitting source.label cls).context.registry =
        cls.schema?.elim session.context.registry fun target =>
          session.context.registry.insert (.text target.recordType) target := by
      cases offered : cls.schema? <;> simp [admitting, registering, Session.quiet, offered]
    rw [same, ih]
    cases offered : cls.schema? with
    | none => simp [registrations, List.filterMap_append, offered]
    | some target =>
      have extended : registrations (classes ++ [cls]) = registrations classes ++ [(target.recordType, target)] := by
        simp [registrations, List.filterMap_append, offered]
      rw [extended, Entries.ofList_snoc, Option.elim_some, Registry.insert_ofEntries (Entries.ofList_nodup _)]

/-- The last of some classes that is of the record type. -/
def latest? (schemas : List Schema) (recordType : String) : Option Schema :=
  schemas.reverse.find? fun schema => schema.recordType = recordType

theorem find?_registrations (recordType : String) :
    Entries.find? recordType (Entries.ofList (registrations classes)) =
      latest? (classes.filterMap Class.schema?) recordType := by
  rw [Entries.find?_ofList, registrations, ← List.map_reverse, List.find?_map, Option.map_map]
  exact Option.map_id'

theorem Defines.older (defines : Defines rootLabel classes session) {former : Schema}
    (within : former ∈ classes.filterMap Class.schema?) : former.id < session.nextId := by
  obtain ⟨cls, made, offered⟩ := List.mem_filterMap.mp within
  obtain ⟨family, -, numbered⟩ := defines.family
  have known : cls ∈ classes.reverse ++ [Class.base] := List.mem_append_left _ (List.mem_reverse.mpr made)
  obtain ⟨rfl, -⟩ := Class.schema_of_schema? offered
  rw [family.ids cls known]
  exact numbered cls known

theorem mem_of_latest? {schemas : List Schema} {recordType : String} {former : Schema}
    (found : latest? schemas recordType = some former) : former ∈ schemas :=
  List.mem_reverse.mp (List.mem_of_find?_eq_some found)

/-- After any definitions the registry has the record types of the classes that were made, in the order in which they
came first, and finds the last class of each. A definition that fails changes and reports nothing. One that succeeds
is reported exactly if another class holds its record type. -/
theorem registry_follows_definitions (rootLabel : String) (sources : List ClassSource) :
    let start : Session := { rootLabel }
    let session := start.defining sources
    let schemas := (start.made sources).filterMap Class.schema?
    session.context.registry.recordTypes = ((schemas.map Schema.recordType).eraseDups).map .text ∧
    (∀ recordType, session.context.registry.find? (.text recordType) = latest? schemas recordType) ∧
    ∀ source,
      (∃ failure, step (.define source) session = (⟨.error failure, []⟩, session.quiet) ∧
        start.made (sources ++ [source]) = start.made sources) ∨
      (∃ answer cls, start.made (sources ++ [source]) = start.made sources ++ [cls] ∧
        (∀ target ∈ cls.schema?, ∀ former ∈ schemas, former.id ≠ target.id) ∧
        (step (.define source) session).1 = ⟨.ok answer, cls.schema?.elim [] fun target =>
          ((latest? schemas target.recordType).map fun former =>
            Event.redefined target.recordType former.name target.name).toList⟩) := by
  intro start session schemas
  have defines : Defines rootLabel (start.made sources) session := defines_run rootLabel sources
  have registry := defines.registry_eq
  have found (recordType : String) :
      session.context.registry.find? (.text recordType) = latest? schemas recordType := by
    rw [registry, Registry.find?_ofEntries, find?_registrations]
  refine ⟨?_, found, ?_⟩
  · rw [registry, Registry.recordTypes_ofEntries, Entries.keys_ofList, registrations, List.map_map]
    rfl
  · intro source
    rw [made_snoc]
    cases outcome : source.define session.labels session.nextId with
    | error fault =>
      rw [run_define_failed defines.unamended outcome]
      exact .inl ⟨_, step_of_failed defines.unamended outcome, List.append_nil _⟩
    | ok cls =>
      obtain ⟨answer, stepped⟩ := step_of_made defines.unamended outcome
      rw [run_define_made defines.unamended outcome]
      refine .inr ⟨answer, cls, rfl, ?_⟩
      have fresh : ∀ target ∈ cls.schema?, ∀ former ∈ schemas, former.id ≠ target.id := by
        intro target offered former within
        obtain ⟨rfl, -⟩ := Class.schema_of_schema? offered
        have id : cls.outline.id = session.nextId := by
          obtain ⟨definition, -, -, -, made⟩ := drawn_of_define defines.family.2.1 outcome
          exact (Class.ids_of_define made).2
        rw [id]
        exact Nat.ne_of_lt (defines.older within)
      refine ⟨fresh, ?_⟩
      rw [stepped]
      cases offered : cls.schema? with
      | none => rfl
      | some target =>
        simp only [Option.elim_some, Registry.takeover, Registry.holder?, found]
        cases held : latest? schemas target.recordType with
        | none => rfl
        | some former =>
          have other := fresh target offered former (mem_of_latest? held)
          rw [Option.filter_some, if_pos (by simpa using other)]

/-- A class without fields that is to be of the record type. -/
def entitled (name recordType : String) : ClassSource where
  name := name
  label := name
  bases := [Schema.base.name]
  isMixin := false
  fields := []
  options := some { recordType := some recordType }

theorem second_note_is_reported :
    ∃ answer cls, ({ rootLabel := "Draft" } : Session).made [entitled "Draft" "Note", entitled "Memo" "Note"] =
        ({ rootLabel := "Draft" } : Session).made [entitled "Draft" "Note"] ++ [cls] ∧
      (step (.define (entitled "Memo" "Note")) (({ rootLabel := "Draft" } : Session).defining [entitled "Draft" "Note"])).1 =
        ⟨.ok answer, [.redefined "Note" "Draft" "Memo"]⟩ := by
  have told : (step (.define (entitled "Memo" "Note")) (({ rootLabel := "Draft" } : Session).defining
      [entitled "Draft" "Note"])).1.events = [.redefined "Note" "Draft" "Memo"] := by
    decide +kernel
  obtain ⟨failure, stepped, -⟩ | ⟨answer, cls, made, -, stepped⟩ :=
    (registry_follows_definitions "Draft" [entitled "Draft" "Note"]).2.2 (entitled "Memo" "Note")
  · rw [stepped] at told
    cases told
  · rw [stepped] at told
    refine ⟨answer, cls, made, ?_⟩
    rw [stepped]
    exact congrArg (Outcome.mk _) told

end Session
end RecordAddress
