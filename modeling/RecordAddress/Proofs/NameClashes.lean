import Mathlib.Data.List.Induction
import RecordAddress.Proofs.Definitions

/-! Which names of fields are refused. A name stays with the key that it was first given to, even where another field
with a name of its own has taken the place of that one. So it is all of the fields that a class goes through whose
names may not clash, not only those which it ends up with. -/

namespace RecordAddress.Class

/-- A field under the key has the name. -/
def Named (fields : List (String × Field Schema)) (key name : String) : Prop :=
  ∃ field, (key, field) ∈ fields ∧ field.name = name

/-- Fields under different keys have the same name. -/
def Clash (fields : List (String × Field Schema)) (first second name : String) : Prop :=
  first ≠ second ∧ Named fields first name ∧ Named fields second name

/-- Fields only take the place of others that have the same name. -/
def KeepsNames (fields : List (String × Field Schema)) : Prop :=
  ∀ key first second, (key, first) ∈ fields → (key, second) ∈ fields → first.name = second.name

def completeAll (style : Text.NamingStyle) (entries : List (String × Field Schema)) :
    Except Fault (List (String × Field Schema)) :=
  entries.mapM fun entry => do return (entry.1, ← complete style entry.1 entry.2)

/-- What a schema is made from. -/
structure Draft where
  ancestors : List Body
  /-- The fields that the ancestors hand down and those of the class itself, each with its name. -/
  fields : List (String × Field Schema)
  typeProperty : Label
  subtypes : Entries (Reference Schema)

/-- Subtypes are told by a property that has the name of one of the fields. -/
def Draft.TypePropertyTaken (draft : Draft) (fields : List (String × Field Schema)) : Prop :=
  draft.subtypes ≠ [] ∧ ∃ key name, draft.typeProperty = .text name ∧ Named fields key name

namespace Definition

def effectiveOptions (definition : Definition) (id : Nat) (ancestors : List Body) : Options Schema :=
  ((definition.settings? id ancestors).map Settings.options).getD {}

/-- All that is seen to when a schema is made, but for clashes of names. -/
def draft (definition : Definition) (id : Nat) : Except Fault Draft := do
  if definition.name.toList.contains (Char.ofNat 0) then .error .nameNotAllowed
  let some ancestors :=
      Linearization.ofBases? Body.id (definition.bases.map order) (definition.bases.map Class.body)
    | .error .inconsistentBases
  let own := definition.own id
  definition.checkKeys own ancestors
  if !ancestors.any Body.isSchema then .error (definition.noSchemaFault id ancestors)
  checkHidden ancestors
  let options := definition.effectiveOptions id ancestors
  let listed ← listSubtypes options.subtypes
  if ancestors.any Body.isMisnamed then .error .nameNoText
  let fields ← completeAll (options.naming.elim .lowerCamel Naming.toStyle) (inherited ancestors ++ own)
  let typeProperty := options.typeProperty.getD (.text "type")
  if !listed.isEmpty && typeProperty = .unusable then .error .typePropertyUnusable
  return { ancestors, fields, typeProperty, subtypes := ← listed.mapM checkSubtype }

end Definition

variable {className : String} {style : Text.NamingStyle} {declared : Declared} {fields entries : List (String × Field Schema)}
  {first second key name : String}

theorem completeAll_cons {entry : String × Field Schema} :
    completeAll style (entry :: entries) = .ok fields ↔
      ∃ field rest, complete style entry.1 entry.2 = .ok field ∧ completeAll style entries = .ok rest ∧
        fields = (entry.1, field) :: rest := by
  simp only [completeAll, List.mapM_cons, bind_eq_ok, pure, Except.pure, Except.ok.injEq]
  constructor
  · rintro ⟨_, ⟨field, completes, rfl⟩, rest, others, rfl⟩
    exact ⟨field, rest, completes, others, rfl⟩
  · rintro ⟨field, rest, completes, others, rfl⟩
    exact ⟨_, ⟨field, completes, rfl⟩, rest, others, rfl⟩

/-- What has been declared of a list of fields: under each key the last one, and each name for the one key that has it. -/
structure Declared.Lists (declared : Declared) (fields : List (String × Field Schema)) : Prop where
  stored : declared.fields = Entries.ofList fields
  owners : ∀ name key, Entries.find? name declared.names = some key ↔ Named fields key name

theorem Declared.Lists.noClash (lists : declared.Lists fields) : ¬ Clash fields first second name := by
  rintro ⟨differ, hasFirst, hasSecond⟩
  exact differ (Option.some.inj (((lists.owners name first).mpr hasFirst).symm.trans ((lists.owners name second).mpr hasSecond)))

theorem named_snoc {field : Field Schema} {other : String} :
    Named (fields ++ [(key, field)]) other name ↔ Named fields other name ∨ other = key ∧ field.name = name := by
  constructor
  · rintro ⟨given, within, same⟩
    rcases List.mem_append.mp within with before | last
    · exact .inl ⟨given, before, same⟩
    · cases List.mem_singleton.mp last
      exact .inr ⟨rfl, same⟩
  · rintro (⟨given, within, same⟩ | ⟨rfl, same⟩)
    · exact ⟨given, List.mem_append_left _ within, same⟩
    · exact ⟨field, List.mem_append_right _ (List.mem_singleton_self _), same⟩

/-- One field more clashes with one under another key, or is listed with the others. -/
theorem Declared.Lists.add (className : String) (lists : declared.Lists fields) {given field : Field Schema}
    (completes : complete style key given = .ok field) :
    (∃ first, declared.add className style (key, given) = .error (.sameName first key className field.name) ∧
      first ≠ key ∧ Named fields first field.name) ∨
    ∃ after, declared.add className style (key, given) = .ok after ∧ after.Lists (fields ++ [(key, field)]) := by
  have put : Entries.put key field declared.fields = Entries.ofList (fields ++ [(key, field)]) := by
    rw [Entries.ofList_snoc, lists.stored]
  cases owner : Entries.find? field.name declared.names with
  | some first =>
    have added : declared.add className style (key, given) =
        if first ≠ key then .error (.sameName first key className field.name)
        else .ok { declared with fields := Entries.put key field declared.fields } := by
      simp only [Declared.add, completes, bind, Except.bind, pure, Except.pure, owner]
    rw [added]
    by_cases same : first = key
    · subst same
      refine .inr ⟨_, if_neg (not_not_intro rfl), put, fun name other => ?_⟩
      rw [named_snoc, lists.owners]
      refine ⟨.inl, fun named => named.elim id ?_⟩
      rintro ⟨rfl, rfl⟩
      exact (lists.owners _ _).mp owner
    · exact .inl ⟨first, if_pos same, same, (lists.owners _ _).mp owner⟩
  | none =>
    have added : declared.add className style (key, given) = .ok
        { fields := Entries.put key field declared.fields, names := Entries.put field.name key declared.names } := by
      simp only [Declared.add, completes, bind, Except.bind, pure, Except.pure, owner]
    refine .inr ⟨_, added, put, fun name other => ?_⟩
    rw [named_snoc, ← lists.owners, Entries.find?_put]
    by_cases same : field.name = name
    · subst same
      simp [owner, eq_comm]
    · simp [same]

/-- Fields are declared one after the other until a name clashes. -/
theorem declare_further (lists : declared.Lists fields) {further : List (String × Field Schema)}
    (completes : completeAll style entries = .ok further) :
    (∃ first second name, entries.foldlM (Declared.add className style) declared = .error (.sameName first second className name) ∧
      Clash (fields ++ further) first second name) ∨
    ∃ after, entries.foldlM (Declared.add className style) declared = .ok after ∧ after.Lists (fields ++ further) := by
  induction entries generalizing declared fields further with
  | nil =>
    rw [completeAll, List.mapM_nil] at completes
    cases completes
    exact .inr ⟨declared, rfl, by rwa [List.append_nil]⟩
  | cons entry rest ih =>
    obtain ⟨field, others, completed, completesRest, rfl⟩ := completeAll_cons.mp completes
    rw [List.foldlM_cons, List.append_cons]
    rcases lists.add className completed with ⟨first, added, differ, owner⟩ | ⟨after, added, lists⟩
    · refine .inl ⟨first, entry.1, field.name, by rw [added]; rfl, differ, ?_, ?_⟩
      · obtain ⟨owner, within, same⟩ := owner
        exact ⟨owner, List.mem_append_left _ (List.mem_append_left _ within), same⟩
      · exact ⟨field, List.mem_append_left _ (List.mem_append_right _ (List.mem_singleton_self _)), rfl⟩
    · rw [added]
      exact ih lists completesRest

theorem declare_cases (className : String) (completes : completeAll style entries = .ok fields) :
    (∃ first second name, declare className style entries = .error (.sameName first second className name) ∧
      Clash fields first second name) ∨
    ∃ declared, declare className style entries = .ok declared ∧ declared.Lists fields := by
  have nothing : Declared.Lists {} [] := ⟨rfl, fun name key => ⟨nofun, fun ⟨_, within, _⟩ => absurd within List.not_mem_nil⟩⟩
  exact declare_further nothing completes

variable {definition : Definition} {id : Nat} {draft : Draft}

/-- The type property is refused if it has the name of a field, and in no other case where nothing else is wrong. -/
private theorem checkSubtypes_cases (className : String) {listed : Entries (Reference Schema) (Option String)}
    {subtypes : Entries (Reference Schema)} {typeProperty : Label} (passes : listed.mapM checkSubtype = .ok subtypes)
    (usable : (!listed.isEmpty && typeProperty = .unusable) = false) (names : Entries String) :
    (∃ name, subtypes ≠ [] ∧ typeProperty = .text name ∧ Entries.contains name names = true ∧
      checkSubtypes className typeProperty listed names = .error (.typePropertyTaken name className)) ∨
    (∀ name, subtypes ≠ [] → typeProperty = .text name → Entries.contains name names = false) ∧
      checkSubtypes className typeProperty listed names = .ok subtypes := by
  cases listed with
  | nil =>
    rw [List.mapM_nil] at passes
    cases passes
    exact .inr ⟨fun _ some => absurd rfl some, rfl⟩
  | cons subtype rest =>
    have some : subtypes ≠ [] := by
      rintro rfl
      simp [List.mapM_cons, bind_eq_ok, pure, Except.pure] at passes
    cases typeProperty with
    | text name =>
      have checks : checkSubtypes className (.text name) (subtype :: rest) names =
          if Entries.contains name names then .error (.typePropertyTaken name className)
          else (subtype :: rest).mapM checkSubtype := by
        simp only [checkSubtypes, List.isEmpty_cons, Bool.false_eq_true, ite_false]
        split <;> rfl
      rw [checks]
      cases taken : Entries.contains name names with
      | true => exact .inl ⟨name, some, rfl, taken, if_pos rfl⟩
      | false =>
        refine .inr ⟨fun other _ same => ?_, ?_⟩
        · cases same
          exact taken
        · rw [if_neg Bool.false_ne_true, passes]
    | other =>
      refine .inr ⟨fun name _ same => ?_, passes⟩
      cases same
    | unusable => simp at usable

/-- What has been seen to where a draft is made. -/
private structure Draft.Sees (draft : Draft) (definition : Definition) (id : Nat)
    (listed : Entries (Reference Schema) (Option String)) : Prop where
  nameAllowed : definition.name.toList.contains (Char.ofNat 0) = false
  linear : Linearization.ofBases? Body.id (definition.bases.map order) (definition.bases.map Class.body) = some draft.ancestors
  keysFree : definition.checkKeys (definition.own id) draft.ancestors = .ok ()
  descends : draft.ancestors.any Body.isSchema = true
  nothingHidden : Definition.checkHidden draft.ancestors = .ok ()
  lists : listSubtypes (definition.effectiveOptions id draft.ancestors).subtypes = .ok listed
  namesAreTexts : draft.ancestors.any Body.isMisnamed = false
  completes : completeAll ((definition.effectiveOptions id draft.ancestors).naming.elim .lowerCamel Naming.toStyle)
    (inherited draft.ancestors ++ definition.own id) = .ok draft.fields
  typeProperty : (definition.effectiveOptions id draft.ancestors).typeProperty.getD (.text "type") = draft.typeProperty
  usable : (!listed.isEmpty && draft.typeProperty = .unusable) = false
  passes : listed.mapM checkSubtype = .ok draft.subtypes

private theorem sees_of_draft (drafted : definition.draft id = .ok draft) : ∃ listed, draft.Sees definition id listed := by
  unfold Definition.draft at drafted
  cases named : definition.name.toList.contains (Char.ofNat 0) with
  | true =>
    rw [named] at drafted
    cases drafted
  | false =>
  simp only [named, Bool.false_eq_true, ite_false] at drafted
  split at drafted
  case h_2 => cases drafted
  case h_1 ancestors linear =>
  rw [bind_eq_ok] at drafted
  obtain ⟨_, keys, drafted⟩ := drafted
  cases schemas : ancestors.any Body.isSchema with
  | false =>
    rw [schemas] at drafted
    cases drafted
  | true =>
  simp only [schemas, Bool.not_true, Bool.false_eq_true, ite_false, bind_eq_ok] at drafted
  obtain ⟨_, shown, listed, lists, drafted⟩ := drafted
  cases misnamed : ancestors.any Body.isMisnamed with
  | true =>
    rw [misnamed] at drafted
    cases drafted
  | false =>
  simp only [misnamed, Bool.false_eq_true, ite_false, bind_eq_ok] at drafted
  obtain ⟨fields, completes, drafted⟩ := drafted
  split at drafted
  case isTrue => cases drafted
  case isFalse usable =>
  obtain ⟨subtypes, passes, same⟩ := bind_eq_ok.mp drafted
  cases same
  exact ⟨listed, named, linear, keys, schemas, shown, lists, misnamed, completes, rfl, Bool.not_eq_true _ ▸ usable, passes⟩

/-- What comes of a class that all of this has been seen to for: the names of its fields and its type property decide. -/
private theorem Draft.Sees.outcome {listed : Entries (Reference Schema) (Option String)} (sees : draft.Sees definition id listed) :
    ∃ style entries, completeAll style entries = .ok draft.fields ∧
    (∀ fault, declare definition.name style entries = .error fault → define id definition = .error fault) ∧
    ∀ declared, declare definition.name style entries = .ok declared →
      (∀ fault, checkSubtypes definition.name draft.typeProperty listed declared.names = .error fault →
        define id definition = .error fault) ∧
      ∀ subtypes, checkSubtypes definition.name draft.typeProperty listed declared.names = .ok subtypes →
        ∃ cls, define id definition = .ok cls ∧ cls.body.handedDown = declared.fields := by
  have defines : define id definition = (definition.schema id draft.ancestors).bind fun made =>
      .ok { outline := made.1, ancestors := draft.ancestors, body :=
        { id, isSchema := true, own := definition.own id, handedDown := made.2.fields
          settings := (definition.ownOptions id).map .given } } := by
    unfold define
    simp only [sees.nameAllowed, Bool.false_eq_true, ite_false, sees.linear, sees.keysFree, sees.descends, ite_true]
    rfl
  have schema : definition.schema id draft.ancestors = (declare definition.name
      ((definition.effectiveOptions id draft.ancestors).naming.elim .lowerCamel Naming.toStyle)
      (inherited draft.ancestors ++ definition.own id)).bind fun declared =>
        (checkSubtypes definition.name draft.typeProperty listed declared.names).bind fun subtypes => .ok
          ({ id, name := definition.name, recordType := definition.recordType, typeProperty := draft.typeProperty.name
             subtypes, fields := Entries.values declared.fields
             naming := (definition.effectiveOptions id draft.ancestors).naming
             lineage := { id, options := definition.ownOptions id } :: draft.ancestors.map Body.layer
             hidden := hiddenOperations draft.ancestors }, declared) := by
    have lists := sees.lists
    have typeProperty := sees.typeProperty
    unfold Definition.effectiveOptions at lists typeProperty ⊢
    unfold Definition.schema
    simp only [sees.nothingHidden, lists, sees.namesAreTexts, Bool.false_eq_true, ite_false, typeProperty]
    rfl
  refine ⟨_, _, sees.completes, fun fault declares => ?_, fun declared declares => ⟨fun fault checks => ?_, fun subtypes checks => ?_⟩⟩
  · rw [defines, schema, declares]
    rfl
  · rw [defines, schema, declares]
    simp only [Except.bind, checks]
  · rw [defines, schema, declares]
    simp only [Except.bind, checks]
    exact ⟨_, rfl, rfl⟩

/-- Either two names clash, or the type property has the name of a field, or the class is made. -/
private theorem define_of_draft (drafted : definition.draft id = .ok draft) :
    (∃ first second name, define id definition = .error (.sameName first second definition.name name) ∧
      Clash draft.fields first second name) ∨
    (∀ first second name, ¬ Clash draft.fields first second name) ∧
      ((∃ name, define id definition = .error (.typePropertyTaken name definition.name) ∧
        draft.TypePropertyTaken draft.fields) ∨
      ¬ draft.TypePropertyTaken draft.fields ∧
        ∃ cls, define id definition = .ok cls ∧ cls.body.handedDown = Entries.ofList draft.fields) := by
  obtain ⟨listed, sees⟩ := sees_of_draft drafted
  obtain ⟨style, entries, completes, refused, goesOn⟩ := sees.outcome
  rcases declare_cases definition.name completes with
    ⟨first, second, name, declares, clash⟩ | ⟨declared, declares, lists⟩
  · exact .inl ⟨first, second, name, refused _ declares, clash⟩
  · refine .inr ⟨fun _ _ _ => lists.noClash, ?_⟩
    obtain ⟨fails, succeeds⟩ := goesOn declared declares
    rcases checkSubtypes_cases definition.name sees.passes sees.usable declared.names with
      ⟨name, some, isText, taken, checks⟩ | ⟨free, checks⟩
    · obtain ⟨key, owner⟩ := Option.isSome_iff_exists.mp taken
      exact .inl ⟨name, fails _ checks, some, key, name, isText, (lists.owners name key).mp owner⟩
    · refine .inr ⟨?_, lists.stored ▸ succeeds _ checks⟩
      rintro ⟨some, key, name, isText, named⟩
      have taken : Entries.contains name declared.names = true := by
        rw [Entries.contains, (lists.owners name key).mpr named, Option.isSome_some]
      cases taken.symm.trans (free name some isText)

/-- The fields that a class ends up with are some of those that it goes through. -/
theorem named_of_resulting (named : Named (Entries.ofList fields) key name) : Named fields key name := by
  obtain ⟨field, within, same⟩ := named
  have found := Entries.find?_of_nodup (Entries.ofList_nodup fields) within
  rw [Entries.find?_ofList] at found
  obtain ⟨⟨other, last⟩, last_found, rfl⟩ := Option.map_eq_some_iff.mp found
  obtain rfl : other = key := by simpa using List.find?_some last_found
  exact ⟨last, List.mem_reverse.mp (List.mem_of_find?_eq_some last_found), same⟩

theorem named_resulting (keeps : KeepsNames fields) (named : Named fields key name) : Named (Entries.ofList fields) key name := by
  obtain ⟨field, within, same⟩ := named
  have present : (fields.reverse.find? fun pair => pair.1 = key).isSome = true :=
    List.find?_isSome.mpr ⟨_, List.mem_reverse.mpr within, by simp⟩
  obtain ⟨⟨other, last⟩, found⟩ := Option.isSome_iff_exists.mp present
  obtain rfl : other = key := by simpa using List.find?_some found
  have stored : Entries.find? other (Entries.ofList fields) = some last := by rw [Entries.find?_ofList, found]; rfl
  refine ⟨last, Entries.mem_of_find? stored, ?_⟩
  exact (keeps other last field (List.mem_reverse.mp (List.mem_of_find?_eq_some found)) within).trans same

/-- Where no field takes the place of one with another name, none of the names is lost. -/
theorem named_resulting_iff (keeps : KeepsNames fields) : Named (Entries.ofList fields) key name ↔ Named fields key name :=
  ⟨named_of_resulting, named_resulting keeps⟩

theorem Clash.mono {others : List (String × Field Schema)} (clash : Clash fields first second name)
    (more : ∀ key name, Named fields key name → Named others key name) : Clash others first second name :=
  ⟨clash.1, more _ _ clash.2.1, more _ _ clash.2.2⟩

theorem Draft.TypePropertyTaken.mono {others : List (String × Field Schema)} (taken : draft.TypePropertyTaken fields)
    (more : ∀ key name, Named fields key name → Named others key name) : draft.TypePropertyTaken others := by
  obtain ⟨some, key, name, isText, named⟩ := taken
  exact ⟨some, key, name, isText, more key name named⟩

private theorem completeAll_of_declare {after : Declared}
    (declares : entries.foldlM (Declared.add className style) declared = .ok after) :
    ∃ fields, completeAll style entries = .ok fields := by
  induction entries generalizing declared with
  | nil => exact ⟨[], rfl⟩
  | cons entry rest ih =>
    rw [List.foldlM_cons, bind_eq_ok] at declares
    obtain ⟨next, added, further⟩ := declares
    obtain ⟨others, completes⟩ := ih further
    simp only [Declared.add, bind_eq_ok] at added
    obtain ⟨field, completed, -⟩ := added
    exact ⟨_, completeAll_cons.mpr ⟨field, others, completed, completes, rfl⟩⟩

private theorem passes_of_checkSubtypes {listed : Entries (Reference Schema) (Option String)}
    {subtypes : Entries (Reference Schema)} {typeProperty : Label} {names : Entries String}
    (checks : checkSubtypes className typeProperty listed names = .ok subtypes) :
    (!listed.isEmpty && typeProperty = .unusable) = false ∧ ∃ subtypes, listed.mapM checkSubtype = .ok subtypes := by
  cases listed with
  | nil => exact ⟨rfl, [], rfl⟩
  | cons subtype rest =>
    cases typeProperty with
    | text name =>
      simp only [checkSubtypes, List.isEmpty_cons, Bool.false_eq_true, ite_false] at checks
      split at checks
      · cases checks
      · exact ⟨by simp, subtypes, checks⟩
    | other => exact ⟨by simp, subtypes, checks⟩
    | unusable => cases checks

/-- There is a draft of every schema that is made. -/
theorem draft_of_define {cls : Class} (made : define id definition = .ok cls) (isSchema : cls.outline.isMixin = false) :
    ∃ draft, definition.draft id = .ok draft := by
  unfold define at made
  cases named : definition.name.toList.contains (Char.ofNat 0) with
  | true =>
    rw [named] at made
    cases made
  | false =>
  simp only [named, Bool.false_eq_true, ite_false] at made
  split at made
  case h_2 => cases made
  case h_1 ancestors linear =>
  rw [bind_eq_ok] at made
  obtain ⟨_, keys, made⟩ := made
  cases schemas : ancestors.any Body.isSchema with
  | false =>
    rw [schemas, if_neg Bool.false_ne_true] at made
    split at made
    · cases made
      cases isSchema
    · cases made
  | true =>
  rw [schemas, if_pos rfl, bind_eq_ok] at made
  obtain ⟨_, made, -⟩ := made
  simp only [Definition.schema, bind_eq_ok] at made
  obtain ⟨_, shown, listed, lists, made⟩ := made
  cases misnamed : ancestors.any Body.isMisnamed with
  | true =>
    rw [misnamed] at made
    cases made
  | false =>
  simp only [misnamed, Bool.false_eq_true, ite_false, bind_eq_ok] at made
  obtain ⟨declared, declares, subtypes, checks, -⟩ := made
  obtain ⟨fields, completes⟩ := completeAll_of_declare declares
  obtain ⟨usable, subtypes, passes⟩ := passes_of_checkSubtypes checks
  have lists : listSubtypes (definition.effectiveOptions id ancestors).subtypes = .ok listed := lists
  have completes : completeAll ((definition.effectiveOptions id ancestors).naming.elim .lowerCamel Naming.toStyle)
    (inherited ancestors ++ definition.own id) = .ok fields := completes
  have usable : (!listed.isEmpty && (definition.effectiveOptions id ancestors).typeProperty.getD (.text "type") = .unusable) =
    false := usable
  unfold Definition.draft
  simp only [named, Bool.false_eq_true, ite_false, linear, keys, schemas, Bool.not_true, shown, lists, misnamed, completes,
    usable, passes, bind, Except.bind]
  exact ⟨_, rfl⟩

/-- An error for the names of two fields tells a clash among those that are gone through. -/
theorem clash_of_sameName (drafted : definition.draft id = .ok draft)
    (failed : define id definition = .error (.sameName first second className name)) :
    className = definition.name ∧ Clash draft.fields first second name := by
  rcases define_of_draft drafted with ⟨_, _, _, found, clash⟩ | ⟨-, ⟨_, found, -⟩ | ⟨-, _, found, -⟩⟩
  · cases failed.symm.trans found
    exact ⟨rfl, clash⟩
  · cases failed.symm.trans found
  · cases failed.symm.trans found

theorem sameName_iff (drafted : definition.draft id = .ok draft) :
    (∃ first second name, define id definition = .error (.sameName first second definition.name name)) ↔
      ∃ first second name, Clash draft.fields first second name := by
  constructor
  · rintro ⟨first, second, name, failed⟩
    exact ⟨first, second, name, (clash_of_sameName drafted failed).2⟩
  · rintro ⟨first, second, name, clash⟩
    rcases define_of_draft drafted with ⟨first, second, name, found, -⟩ | ⟨none, -⟩
    · exact ⟨first, second, name, found⟩
    · exact absurd clash (none first second name)

theorem typePropertyTaken_iff (drafted : definition.draft id = .ok draft) :
    (∃ name, define id definition = .error (.typePropertyTaken name definition.name)) ↔
      ¬ (∃ first second name, Clash draft.fields first second name) ∧ draft.TypePropertyTaken draft.fields := by
  rcases define_of_draft drafted with ⟨first, second, name, found, clash⟩ | ⟨none, ⟨name, found, isTaken⟩ | ⟨free, cls, found, -⟩⟩
  · refine ⟨?_, fun ⟨noClash, _⟩ => absurd ⟨first, second, name, clash⟩ noClash⟩
    rintro ⟨_, failed⟩
    cases failed.symm.trans found
  · refine ⟨fun _ => ⟨?_, isTaken⟩, fun _ => ⟨name, found⟩⟩
    rintro ⟨first, second, name, clash⟩
    exact none first second name clash
  · refine ⟨?_, fun ⟨_, isTaken⟩ => absurd isTaken free⟩
    rintro ⟨_, failed⟩
    cases failed.symm.trans found

/-- A class that nothing else is wrong with is refused for the names of two fields exactly if they clash among all the
fields that it goes through, and for its type property exactly if one of these has its name. So clashes among the fields
that it ends up with are always found, and no others are unless a field takes the place of one with another name. -/
theorem name_clashes_are_refused (drafted : definition.draft id = .ok draft) :
    let resulting := Entries.ofList draft.fields
    let refused := ∃ first second name, define id definition = .error (.sameName first second definition.name name)
    let taken := ∃ name, define id definition = .error (.typePropertyTaken name definition.name)
    (∀ first second className name, define id definition = .error (.sameName first second className name) →
      className = definition.name ∧ Clash draft.fields first second name) ∧
    (refused ↔ ∃ first second name, Clash draft.fields first second name) ∧
    (taken ↔ ¬ refused ∧ draft.TypePropertyTaken draft.fields) ∧
    ((∃ first second name, Clash resulting first second name) → refused) ∧
    (¬ refused → draft.TypePropertyTaken resulting → taken) ∧
    (KeepsNames draft.fields →
      (refused ↔ ∃ first second name, Clash resulting first second name) ∧
      (¬ refused → (taken ↔ draft.TypePropertyTaken resulting))) ∧
    (¬ refused → ¬ taken → ∃ cls, define id definition = .ok cls ∧ cls.body.handedDown = resulting) := by
  intro resulting refused taken
  have refusal : refused ↔ ∃ first second name, Clash draft.fields first second name := sameName_iff drafted
  have taking : taken ↔ ¬ refused ∧ draft.TypePropertyTaken draft.fields :=
    (typePropertyTaken_iff drafted).trans (and_congr_left' (not_congr refusal.symm))
  refine ⟨fun _ _ _ _ => clash_of_sameName drafted, refusal, taking, ?_, ?_, ?_, ?_⟩
  · rintro ⟨first, second, name, clash⟩
    exact refusal.mpr ⟨first, second, name, clash.mono fun _ _ => named_of_resulting⟩
  · exact fun fine isTaken => taking.mpr ⟨fine, isTaken.mono fun _ _ => named_of_resulting⟩
  · intro keeps
    have sameNames : draft.TypePropertyTaken resulting ↔ draft.TypePropertyTaken draft.fields := by
      simp only [Draft.TypePropertyTaken, resulting, named_resulting_iff keeps]
    constructor
    · simp only [refusal, Clash, resulting, named_resulting_iff keeps]
    · intro fine
      rw [taking, sameNames]
      exact and_iff_right fine
  · intro fine free
    rcases define_of_draft drafted with ⟨first, second, name, found, -⟩ | ⟨-, ⟨name, found, -⟩ | ⟨-, cls, found, handed⟩⟩
    · exact absurd ⟨first, second, name, found⟩ fine
    · exact absurd ⟨name, found⟩ free
    · exact ⟨cls, found, handed⟩

/-- A class of the bases, with texts as its fields, each under its key and with its name if it is given one. -/
def declaring (className : String) (bases : List Class) (fields : List (String × String))
    (options : Option (Options Schema)) : Definition where
  name := className
  bases := bases
  isMixin := false
  fields := fields.map fun (key, name) => (key, { arrangement := .single (.scalar .string), name })
  options := options

private def namesOf (fields : List (String × Field Schema)) : List (String × String) :=
  fields.map fun entry => (entry.1, entry.2.name)

private theorem named_iff : Named fields key name ↔ (key, name) ∈ namesOf fields := by
  simp only [Named, namesOf, List.mem_map, Prod.mk.injEq, Prod.exists]
  constructor
  · rintro ⟨field, within, same⟩
    exact ⟨key, field, within, rfl, same⟩
  · rintro ⟨_, field, within, rfl, same⟩
    exact ⟨field, within, same⟩

/-- The name that a key makes up is one that another field was given. -/
theorem created_on_clashes :
    let definition := declaring "Order" [Class.base] [("created_on", ""), ("created", "createdOn")] none
    ∃ draft, definition.draft 1 = .ok draft ∧ Clash draft.fields "created_on" "created" "createdOn" ∧
      ∃ first second name, define 1 definition = .error (.sameName first second definition.name name) := by
  intro definition
  have computed : ((definition.draft 1).toOption.any fun draft =>
      namesOf draft.fields = [("created_on", "createdOn"), ("created", "createdOn")]) = true := by
    decide +kernel
  simp only [Option.any_eq_true, decide_eq_true_eq, toOption_eq_some] at computed
  obtain ⟨draft, drafted, names⟩ := computed
  have clash : Clash draft.fields "created_on" "created" "createdOn" := by simp [Clash, named_iff, names]
  exact ⟨draft, drafted, clash, (name_clashes_are_refused drafted).2.1.mpr ⟨_, _, _, clash⟩⟩

private def fault? : Except Fault Class → Option Fault
  | .error fault => some fault
  | .ok _ => none

private theorem fault?_eq_some {outcome : Except Fault Class} {fault : Fault} : fault? outcome = some fault ↔ outcome = .error fault := by
  cases outcome <;> simp [fault?]

/-- A name is refused that nothing has any more: the only field that had it has given way to one of another name. -/
theorem overridden_names_are_refused :
    (∃ base draft, define 1 (declaring "Base" [Class.base] [("x", "a")] none) = .ok base ∧
      let sub := declaring "Sub" [base] [("x", "b"), ("y", "a")] none
      sub.draft 2 = .ok draft ∧ define 2 sub = .error (.sameName "x" "y" "Sub" "a") ∧
      ∀ first second name, ¬ Clash (Entries.ofList draft.fields) first second name) ∧
    ∃ base draft, define 1 (declaring "Base" [Class.base] [("kind", "type")] none) = .ok base ∧
      let sub := declaring "Sub" [base] [("kind", "sort")] (some { subtypes := some (.listed [(some "NOTED", .named "Noted")]) })
      sub.draft 2 = .ok draft ∧ define 2 sub = .error (.typePropertyTaken "type" "Sub") ∧
      ¬ draft.TypePropertyTaken (Entries.ofList draft.fields) := by
  constructor
  · have computed : ((define 1 (declaring "Base" [Class.base] [("x", "a")] none)).toOption.any fun base =>
        let sub := declaring "Sub" [base] [("x", "b"), ("y", "a")] none
        (sub.draft 2).toOption.any fun draft => fault? (define 2 sub) = some (.sameName "x" "y" "Sub" "a") ∧
          namesOf (Entries.ofList draft.fields) = [("x", "b"), ("y", "a")]) = true := by
      decide +kernel
    simp only [Option.any_eq_true, decide_eq_true_eq, toOption_eq_some, fault?_eq_some] at computed
    obtain ⟨base, made, draft, drafted, refused, names⟩ := computed
    refine ⟨base, draft, made, drafted, refused, fun first second name => ?_⟩
    simp only [Clash, named_iff, names, List.mem_cons, Prod.mk.injEq, List.not_mem_nil, or_false]
    rintro ⟨differ, ⟨rfl, rfl⟩ | ⟨rfl, rfl⟩, ⟨rfl, same⟩ | ⟨rfl, same⟩⟩ <;> simp at differ same
  · have computed : ((define 1 (declaring "Base" [Class.base] [("kind", "type")] none)).toOption.any fun base =>
        let sub := declaring "Sub" [base] [("kind", "sort")] (some { subtypes := some (.listed [(some "NOTED", .named "Noted")]) })
        (sub.draft 2).toOption.any fun draft => fault? (define 2 sub) = some (.typePropertyTaken "type" "Sub") ∧
          draft.typeProperty = .text "type" ∧ namesOf (Entries.ofList draft.fields) = [("kind", "sort")]) = true := by
      decide +kernel
    simp only [Option.any_eq_true, decide_eq_true_eq, toOption_eq_some, fault?_eq_some] at computed
    obtain ⟨base, made, draft, drafted, refused, typeProperty, names⟩ := computed
    refine ⟨base, draft, made, drafted, refused, ?_⟩
    rintro ⟨-, key, name, isText, named⟩
    rw [typeProperty] at isText
    cases isText
    simp [named_iff, names] at named

end RecordAddress.Class
