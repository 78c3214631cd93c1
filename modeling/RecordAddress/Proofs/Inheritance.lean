import Mathlib.Data.List.Induction
import RecordAddress.Proofs.Defining

/-! Where the declared fields of a class come from. A field that the class body does not have itself is taken from
the first ancestor that hands one down, and schemas hand down what they took from their own ancestors. -/

namespace RecordAddress

/-- A field as it is declared in the place of a given one. Only a name and a mapped key that were not given are
made up. -/
structure Field.Completes (field given : Field Schema) : Prop where
  arrangement : field.arrangement = given.arrangement
  origin : field.origin = given.origin
  name : given.name ≠ "" → field.name = given.name
  mappedKey : given.mappedKey ≠ "" → field.mappedKey = given.mappedKey

theorem Field.Completes.refl (field : Field Schema) : field.Completes field :=
  ⟨rfl, rfl, fun _ => rfl, fun _ => rfl⟩

theorem Field.Completes.trans {field middle given : Field Schema} (later : field.Completes middle)
    (earlier : middle.Completes given) : field.Completes given where
  arrangement := later.arrangement.trans earlier.arrangement
  origin := later.origin.trans earlier.origin
  name named := by
    have kept := earlier.name named
    exact (later.name (kept ▸ named)).trans kept
  mappedKey mapped := by
    have kept := earlier.mappedKey mapped
    exact (later.mappedKey (kept ▸ mapped)).trans kept

private theorem of_rel_some {α β : Type} {r : α → β → Prop} {first? : Option α} {second : β}
    (related : Option.Rel r first? (some second)) : ∃ first, first? = some first ∧ r first second := by
  cases related with
  | some related => exact ⟨_, rfl, related⟩

private theorem of_some_rel {α β : Type} {r : α → β → Prop} {first : α} {second? : Option β}
    (related : Option.Rel r (some first) second?) : ∃ second, second? = some second ∧ r first second := by
  cases related with
  | some related => exact ⟨_, rfl, related⟩

private theorem Rel.mono {α β : Type} {r s : α → β → Prop} {first? : Option α} {second? : Option β}
    (related : Option.Rel r first? second?) (weaker : ∀ first second, r first second → s first second) :
    Option.Rel s first? second? := by
  cases related with
  | none => exact .none
  | some related => exact .some (weaker _ _ related)

/-- Where keys differ, the last value under a key is the only one. -/
theorem Entries.find?_reverse {α : Type} {entries : Entries α} (distinct : entries.keys.Nodup) (key : String) :
    (entries.reverse.find? fun entry => entry.1 = key).map Prod.snd = Entries.find? key entries := by
  cases stored : Entries.find? key entries with
  | none =>
    rw [Option.map_eq_none_iff, List.find?_eq_none]
    intro entry within same
    have listed : entry.1 ∈ entries.keys := List.mem_map_of_mem (List.mem_reverse.mp within)
    exact Entries.find?_eq_none.mp stored (of_decide_eq_true same ▸ listed)
  | some value =>
    have present : (entries.reverse.find? fun entry => entry.1 = key).isSome = true :=
      List.find?_isSome.mpr ⟨_, List.mem_reverse.mpr (Entries.mem_of_find? stored), by simp⟩
    obtain ⟨⟨name, last⟩, found⟩ := Option.isSome_iff_exists.mp present
    obtain rfl : name = key := by simpa using List.find?_some found
    have listed := List.mem_reverse.mp (List.mem_of_find?_eq_some found)
    rw [found, Option.map_some, ← stored, Entries.find?_of_nodup distinct listed]

namespace Class
variable {className : String} {style : Text.NamingStyle} {declared : Declared} {key : String}

theorem completes_of_complete {field given : Field Schema} (completed : complete style key given = .ok field) :
    field.key = key ∧ field.Completes given := by
  obtain ⟨name, named, -, rfl⟩ := complete_eq_ok completed
  exact ⟨rfl, rfl, rfl, named, fun mapped => if_neg mapped⟩

theorem find?_of_add {after : Declared} {entry : String × Field Schema} (added : declared.add className style entry = .ok after)
    (key : String) : ∃ field, complete style entry.1 entry.2 = .ok field ∧
      Entries.find? key after.fields = if entry.1 = key then some field else Entries.find? key declared.fields := by
  simp only [Declared.add, bind_eq_ok] at added
  obtain ⟨field, completed, added⟩ := added
  refine ⟨field, completed, ?_⟩
  have fields : after.fields = Entries.put entry.1 field declared.fields := by
    split at added
    · split at added
      · cases added
      · cases added
        rfl
    · cases added
      rfl
  rw [fields, Entries.find?_put]

/-- The last field under a key is the one that is declared. -/
theorem find?_of_declare {fields : List (String × Field Schema)} (declares : declare className style fields = .ok declared)
    (key : String) : Option.Rel (fun given field => complete style key given = .ok field)
      (Entries.find? key (Entries.ofList fields)) (Entries.find? key declared.fields) := by
  induction fields using List.reverseRecOn generalizing declared with
  | nil =>
    cases declares
    exact .none
  | append_singleton fields entry ih =>
    rw [declare, List.foldlM_append, bind_eq_ok] at declares
    obtain ⟨before, earlier, added⟩ := declares
    rw [List.foldlM_cons, bind_eq_ok] at added
    obtain ⟨after, added, same⟩ := added
    cases same
    obtain ⟨field, completed, found⟩ := find?_of_add added key
    rw [Entries.ofList_snoc, Entries.find?_put, found]
    split
    next same => exact .some (same ▸ completed)
    next => exact ih earlier

/-- What a class declares under a key, before it is completed: the field of its own, else that of the first ancestor
that hands one down. -/
def given? (own : Entries (Field Schema)) (ancestors : List Body) (key : String) : Option (Field Schema) :=
  (Entries.find? key own).or (ancestors.findSome? fun body => Entries.find? key body.handedDown)

private theorem nearest_handed_down {ancestors : List Body} (distinct : ∀ body ∈ ancestors, body.handedDown.keys.Nodup)
    (key : String) :
    (ancestors.findSome? fun body => body.handedDown.reverse.find? fun entry => entry.1 = key).map Prod.snd =
      ancestors.findSome? fun body => Entries.find? key body.handedDown := by
  induction ancestors with
  | nil => rfl
  | cons body rest ih =>
    have further := ih fun other within => distinct other (List.mem_cons_of_mem _ within)
    rw [List.findSome?_cons, List.findSome?_cons, ← further, ← Entries.find?_reverse (distinct body List.mem_cons_self)]
    cases body.handedDown.reverse.find? fun entry => entry.1 = key <;> rfl

theorem find?_of_inherited {own : Entries (Field Schema)} {ancestors : List Body} (distinct : own.keys.Nodup)
    (allDistinct : ∀ body ∈ ancestors, body.handedDown.keys.Nodup) (key : String) :
    Entries.find? key (Entries.ofList (inherited ancestors ++ own)) = given? own ancestors key := by
  have farther : (inherited ancestors).reverse = ancestors.flatMap fun body => body.handedDown.reverse := by
    rw [inherited, List.reverse_flatMap, List.reverse_reverse]
    rfl
  rw [Entries.find?_ofList, List.reverse_append, List.find?_append, Option.map_or, Entries.find?_reverse distinct, farther,
    List.find?_flatMap, nearest_handed_down allDistinct, given?]

theorem own_nodup (definition : Definition) (id : Nat) : (definition.own id).keys.Nodup := by
  unfold Definition.own
  split
  · rw [Entries.keys_erase]
    exact (Entries.ofList_nodup _).filter _
  · exact Entries.ofList_nodup _

/-- A declared field has the key that it is declared under, and completes one that is given under it. -/
theorem given_of_declare {fields : List (String × Field Schema)} (declares : declare className style fields = .ok declared)
    {entry : String × Field Schema} (within : entry ∈ declared.fields) :
    entry.2.key = entry.1 ∧ ∃ given, (entry.1, given) ∈ fields ∧ entry.2.Completes given := by
  have related := find?_of_declare declares entry.1
  rw [Entries.find?_of_nodup (sound_of_declare declares).keys within] at related
  obtain ⟨given, found, completed⟩ := of_rel_some related
  obtain ⟨keyed, completes⟩ := completes_of_complete completed
  exact ⟨keyed, given, Entries.mem_of_ofList (Entries.mem_of_find? found), completes⟩

theorem keyed_of_declare {fields : List (String × Field Schema)} (declares : declare className style fields = .ok declared) :
    ∀ entry ∈ declared.fields, entry.2.key = entry.1 :=
  fun _ within => (given_of_declare declares within).1

theorem find?_values {entries : Entries (Field Schema)} (keyed : ∀ entry ∈ entries, entry.2.key = entry.1) (key : String) :
    (entries.values.find? fun field => field.key = key) = Entries.find? key entries := by
  induction entries with
  | nil => rfl
  | cons entry rest ih =>
    obtain ⟨name, field⟩ := entry
    have here : field.key = name := keyed _ List.mem_cons_self
    have further := ih fun other within => keyed other (List.mem_cons_of_mem _ within)
    rw [Entries.values, List.map_cons, List.find?_cons, Entries.find?_cons, ← further, here]
    by_cases same : name = key <;> simp [same, Entries.values]

/-- How a class stands to the classes that it was defined from. -/
structure Traced (classes : List Class) (cls : Class) : Prop where
  ownKeys : cls.body.own.keys.Nodup
  handedKeys : cls.body.handedDown.keys.Nodup
  ids : (cls.order.map Body.id).Nodup
  ancestors : ∀ body ∈ cls.ancestors, ∃ other ∈ classes, other.body = body ∧ other.order.Sublist cls.ancestors
  /-- A mixin hands down the fields of its own and nothing else. -/
  mixin : cls.outline.isMixin = true → cls.body.handedDown = cls.body.own
  declared : cls.outline.isMixin = false → ∀ key, cls.outline.field? key = Entries.find? key cls.body.handedDown ∧
    Option.Rel (fun given field => Field.Completes field given) (given? cls.body.own cls.ancestors key)
      (Entries.find? key cls.body.handedDown)

variable {classes : List Class} {cls : Class} {definition : Definition} {id : Nat}

theorem Family.apart (family : Family classes) {first second : Class} (within : first ∈ classes) (other : second ∈ classes)
    (ids : first.body.id = second.body.id) : first = second := by
  induction family with
  | base => exact (List.mem_singleton.mp within).trans (List.mem_singleton.mp other).symm
  | define _ older _ defined ih =>
    have newest := (ids_of_define defined).1
    rcases List.mem_cons.mp within with rfl | before <;> rcases List.mem_cons.mp other with rfl | otherBefore
    · rfl
    · exact absurd (ids.symm.trans newest) (Nat.ne_of_lt (older second otherBefore))
    · exact absurd (ids.trans newest) (Nat.ne_of_lt (older first before))
    · exact ih before otherBefore

theorem traced_base : Traced [Class.base] Class.base where
  ownKeys := List.nodup_nil
  handedKeys := List.nodup_nil
  ids := List.nodup_singleton _
  ancestors := fun _ within => absurd within List.not_mem_nil
  mixin := nofun
  declared := fun _ _ => ⟨rfl, .none⟩

theorem Traced.mono {more : List Class} (traced : Traced classes cls) (within : ∀ other ∈ classes, other ∈ more) :
    Traced more cls :=
  { traced with
    ancestors := by
      intro body ancestor
      obtain ⟨other, listed, same, order⟩ := traced.ancestors body ancestor
      exact ⟨other, within other listed, same, order⟩ }

section
variable {ancestors : List Body} (family : Family classes) (traced : ∀ cls ∈ classes, Traced classes cls)
  (drawn : ∀ base ∈ definition.bases, base ∈ classes)
include traced drawn

private theorem class_of_brought {base : Class} (isBase : base ∈ definition.bases) {body : Body} (within : body ∈ base.order) :
    ∃ other ∈ classes, other.body = body ∧ other.order.Sublist base.order := by
  rcases List.mem_cons.mp within with rfl | ancestor
  · exact ⟨base, drawn base isBase, rfl, List.Sublist.refl _⟩
  · obtain ⟨other, listed, same, order⟩ := (traced base (drawn base isBase)).ancestors body ancestor
    exact ⟨other, listed, same, order.trans (List.sublist_cons_self _ _)⟩

include family

/-- The ancestors that bases bring are classes with their orders kept. -/
theorem ancestors_of_bases
    (linear : Linearization.ofBases? Body.id (definition.bases.map order) (definition.bases.map Class.body) = some ancestors) :
    ∀ body ∈ ancestors, ∃ other ∈ classes, other.body = body ∧ other.order.Sublist ancestors := by
  have apart : Linearization.ToldApart Body.id (definition.bases.map order ++ [definition.bases.map Class.body]) := by
    intro first second within other ids
    obtain ⟨firstBase, isBase, inside⟩ := base_of_brought within
    obtain ⟨secondBase, isOther, otherInside⟩ := base_of_brought other
    obtain ⟨firstClass, known, rfl, -⟩ := class_of_brought traced drawn isBase inside
    obtain ⟨secondClass, otherKnown, rfl, -⟩ := class_of_brought traced drawn isOther otherInside
    rw [family.apart known otherKnown ids]
  intro body within
  obtain ⟨base, isBase, inside⟩ := base_of_brought (Linearization.mem_of_merge linear within)
  obtain ⟨other, known, same, order⟩ := class_of_brought traced drawn isBase inside
  have kept : base.order.Sublist ancestors :=
    Linearization.sublist_of_merge apart linear (List.mem_append_left _ (List.mem_map_of_mem isBase))
  exact ⟨other, known, same, order.trans kept⟩

/-- No class comes twice among the ancestors, nor is a class an ancestor of its own. -/
theorem ids_nodup (older : ∀ other ∈ classes, other.body.id < id)
    (linear : Linearization.ofBases? Body.id (definition.bases.map order) (definition.bases.map Class.body) = some ancestors) :
    (id :: ancestors.map Body.id).Nodup := by
  refine List.nodup_cons.mpr ⟨?_, Linearization.nodup_of_merge linear⟩
  intro within
  obtain ⟨body, ancestor, same⟩ := List.mem_map.mp within
  obtain ⟨other, known, rfl, -⟩ := ancestors_of_bases family traced drawn linear body ancestor
  exact absurd same (Nat.ne_of_lt (older other known))

theorem traced_of_define (older : ∀ other ∈ classes, other.body.id < id) (defined : Class.define id definition = .ok cls) :
    Traced classes cls := by
  obtain ⟨ancestors, linear, ⟨schema, declared, made, rfl⟩ | ⟨body, mixin, rfl⟩⟩ := define_cases defined
  · obtain ⟨-, noMixin, fields, style, declares⟩ := declares_of_schema made
    have handed : ∀ body ∈ ancestors, body.handedDown.keys.Nodup := by
      intro body ancestor
      obtain ⟨other, known, rfl, -⟩ := ancestors_of_bases family traced drawn linear body ancestor
      exact (traced other known).handedKeys
    have found (key : String) := find?_of_declare declares key
    refine
      { ownKeys := own_nodup definition id
        handedKeys := (sound_of_declare declares).keys
        ids := ids_nodup family traced drawn older linear
        ancestors := ancestors_of_bases family traced drawn linear
        mixin := fun isMixin => ?_
        declared := fun _ key => ⟨?_, ?_⟩ }
    · rw [noMixin] at isMixin
      cases isMixin
    · rw [Schema.field?, fields]
      exact find?_values (keyed_of_declare declares) key
    · rw [← find?_of_inherited (own_nodup definition id) handed]
      exact Rel.mono (found key) fun _ _ completed => (completes_of_complete completed).2
  · obtain ⟨numbered, -, own, handedDown, -⟩ := mixin
    refine
      { ownKeys := own ▸ own_nodup definition id
        handedKeys := handedDown ▸ own_nodup definition id
        ids := by
          have ids := ids_nodup family traced drawn older linear
          rwa [← numbered] at ids
        ancestors := ancestors_of_bases family traced drawn linear
        mixin := fun _ => handedDown.trans own.symm
        declared := nofun }

end

theorem Family.traced (family : Family classes) : ∀ cls ∈ classes, Traced classes cls := by
  induction family with
  | base =>
    intro cls within
    obtain rfl := List.mem_singleton.mp within
    exact traced_base
  | define family older drawn defined ih =>
    intro other within
    rcases List.mem_cons.mp within with rfl | before
    · exact (traced_of_define family ih drawn.bases older defined).mono fun _ => List.mem_cons_of_mem _
    · exact (ih other before).mono fun _ => List.mem_cons_of_mem _

/-- The declared fields of a schema have different keys. -/
theorem Family.keys_nodup (family : Family classes) (within : cls ∈ classes) (isSchema : cls.outline.isMixin = false) :
    (cls.outline.fields.map Field.key).Nodup := by
  induction family with
  | base =>
    obtain rfl := List.mem_singleton.mp within
    exact List.nodup_nil
  | define _ _ _ defined ih =>
    rcases List.mem_cons.mp within with rfl | before
    · obtain ⟨_, -, ⟨schema, declared, made, rfl⟩ | ⟨body, -, rfl⟩⟩ := define_cases defined
      · obtain ⟨-, -, fields, _, declares⟩ := declares_of_schema made
        have keys : schema.fields.map Field.key = declared.fields.keys := by
          rw [fields, Entries.values, Entries.keys, List.map_map]
          exact List.map_congr_left (keyed_of_declare declares)
        rw [keys]
        exact (sound_of_declare declares).keys
      · cases isSchema
    · exact ih before

/-- Where a class has the declared field of a key from. -/
theorem Traced.handed_from (traced : Traced classes cls) {key : String} {field : Field Schema}
    (handed : Entries.find? key cls.body.handedDown = some field) :
    ∃ given, given? cls.body.own cls.ancestors key = some given ∧ field.Completes given := by
  cases isMixin : cls.outline.isMixin with
  | true =>
    rw [traced.mixin isMixin] at handed
    exact ⟨field, by rw [given?, handed, Option.some_or], .refl field⟩
  | false =>
    have completes := (traced.declared isMixin key).2
    rw [handed] at completes
    exact of_rel_some completes

/-- A class hands down what it has of its own. -/
theorem Traced.own_handed_down (traced : Traced classes cls) {key : String} {given : Field Schema}
    (own : Entries.find? key cls.body.own = some given) :
    ∃ field, Entries.find? key cls.body.handedDown = some field ∧ field.Completes given := by
  cases isMixin : cls.outline.isMixin with
  | true =>
    rw [traced.mixin isMixin]
    exact ⟨given, own, .refl given⟩
  | false =>
    have completes := (traced.declared isMixin key).2
    rw [given?, own, Option.some_or] at completes
    exact of_some_rel completes

theorem Traced.shorter (_ : Traced classes cls) {other : Class} (order : other.order.Sublist cls.ancestors) :
    other.order.length < cls.order.length :=
  Nat.lt_succ_of_le order.length_le

/-- Whatever is handed down was declared in the body of a class. -/
theorem Family.declared_somewhere (family : Family classes) (within : cls ∈ classes) {key : String}
    {field : Field Schema} (handed : Entries.find? key cls.body.handedDown = some field) :
    ∃ body ∈ cls.order, Entries.contains key body.own = true := by
  -- an ancestor has a shorter order than the class, and need not be the class that was made right before it
  induction length : cls.order.length using Nat.strongRecOn generalizing cls field with
  | _ length ih =>
    have traced := family.traced cls within
    obtain ⟨given, taken, -⟩ := traced.handed_from handed
    rcases Option.or_eq_some_iff.mp taken with own | ⟨-, inherited⟩
    · exact ⟨cls.body, List.mem_cons_self, by rw [Entries.contains, own, Option.isSome_some]⟩
    · obtain ⟨body, ancestor, handed⟩ := List.exists_of_findSome?_eq_some inherited
      obtain ⟨other, known, rfl, order⟩ := traced.ancestors body ancestor
      obtain ⟨declarer, inside, declares⟩ := ih _ (length ▸ traced.shorter order) known handed rfl
      exact ⟨declarer, List.mem_cons_of_mem _ (order.subset inside), declares⟩

/-- A schema declares whatever a class of its order declares. -/
theorem Family.declares_all (family : Family classes) (within : cls ∈ classes) (isSchema : cls.outline.isMixin = false)
    {key : String} {body : Body} (inside : body ∈ cls.order) (declares : Entries.contains key body.own = true) :
    (Entries.find? key cls.body.handedDown).isSome = true := by
  have traced := family.traced cls within
  obtain ⟨given, own⟩ := Option.isSome_iff_exists.mp declares
  rcases List.mem_cons.mp inside with rfl | ancestor
  · obtain ⟨field, handed, -⟩ := traced.own_handed_down own
    rw [handed, Option.isSome_some]
  · obtain ⟨other, known, rfl, -⟩ := traced.ancestors body ancestor
    obtain ⟨field, handed, -⟩ := (family.traced other known).own_handed_down own
    have inherited : (cls.ancestors.findSome? fun body => Entries.find? key body.handedDown).isSome = true :=
      List.findSome?_isSome_iff.mpr ⟨other.body, ancestor, by rw [handed, Option.isSome_some]⟩
    have taken : (given? cls.body.own cls.ancestors key).isSome = true := by
      rw [given?, Option.isSome_or, inherited, Bool.or_true]
    have completes := (traced.declared isSchema key).2
    obtain ⟨given, takes⟩ := Option.isSome_iff_exists.mp taken
    rw [takes] at completes
    obtain ⟨field, handed, -⟩ := of_some_rel completes
    rw [handed, Option.isSome_some]

private theorem find?_of_sublist {α : Type} {shorter order : List α} {p : α → Bool} {first : α} (kept : shorter.Sublist order)
    (distinct : order.Nodup) (found : order.find? p = some first) (within : first ∈ shorter) : shorter.find? p = some first := by
  have holds := List.find?_some found
  induction kept with
  | slnil => cases within
  | @cons shorter order other kept ih =>
    obtain ⟨apart, distinct⟩ := List.nodup_cons.mp distinct
    rw [List.find?_cons] at found
    split at found
    · cases found
      exact absurd (kept.subset within) apart
    · exact ih distinct found within
  | @cons_cons shorter order other kept ih =>
    obtain ⟨apart, distinct⟩ := List.nodup_cons.mp distinct
    rw [List.find?_cons] at found ⊢
    split at found
    · exact found
    next fails =>
      have later : first ∈ shorter := (List.mem_cons.mp within).resolve_left fun same => by simp [← same, holds] at fails
      exact ih distinct found later

/-- The first class of the order that declares a field is the one that it is taken from, if the classes before it that
hand such a field down all descend from it. -/
theorem Family.completes_first (family : Family classes) (within : cls ∈ classes) {key : String} {declarer : Body}
    {given field : Field Schema} (first : cls.order.find? (Entries.contains key ·.own) = some declarer)
    (declares : Entries.find? key declarer.own = some given)
    (inherit : ∀ other, [other, declarer].Sublist cls.order → Entries.contains key other.handedDown = true →
      ∃ heir ∈ classes, heir.body = other ∧ declarer ∈ heir.order)
    (handed : Entries.find? key cls.body.handedDown = some field) : field.Completes given := by
  -- by the order as before: the heir that hands the field down comes first to the same declarer in its own order
  induction length : cls.order.length using Nat.strongRecOn generalizing cls field with
  | _ length ih =>
    have traced := family.traced cls within
    obtain ⟨taken, takes, completes⟩ := traced.handed_from handed
    rw [order, List.find?_cons] at first
    rcases Option.or_eq_some_iff.mp takes with own | ⟨notOwn, inherited⟩
    · rw [Entries.contains, own] at first
      cases first
      cases own.symm.trans declares
      exact completes
    · rw [Entries.contains, notOwn] at first
      refine completes.trans ?_
      obtain ⟨itself, known, rfl, -⟩ := traced.ancestors declarer (List.mem_of_find?_eq_some first)
      obtain ⟨handedOn, hands, kept⟩ := (family.traced itself known).own_handed_down declares
      obtain ⟨before, nearest, after, split, handedDown, nothing⟩ := List.findSome?_eq_some_iff.mp inherited
      have position := List.mem_of_find?_eq_some first
      rw [split, List.mem_append, List.mem_cons] at position
      rcases position with earlier | rfl | later
      · cases (nothing _ earlier).symm.trans hands
      · cases handedDown.symm.trans hands
        exact kept
      · -- the nearest class that hands one down descends from the declarer, so it has it from there
        have ordered : [nearest, itself.body].Sublist cls.ancestors := by
          rw [split]
          exact .trans (.cons_cons nearest (List.singleton_sublist.mpr later)) (List.sublist_append_right before _)
        obtain ⟨heir, heirKnown, rfl, descends⟩ := inherit nearest (ordered.cons _) (by rw [Entries.contains, handedDown, Option.isSome_some])
        obtain ⟨same, sameKnown, ids, shorter⟩ := traced.ancestors heir.body (ordered.subset List.mem_cons_self)
        obtain rfl := family.apart sameKnown heirKnown (congrArg Body.id ids)
        have distinct : cls.ancestors.Nodup := (List.nodup_cons.mp traced.ids).2.of_map
        refine ih _ (length ▸ traced.shorter shorter) heirKnown (find?_of_sublist shorter distinct first descends) ?_ handedDown rfl
        exact fun other between => inherit other (between.trans (shorter.trans (List.sublist_cons_self _ _)))

end Class

namespace Session

/-- A schema declares a key exactly if a class of its order does. It has the field of its own body, else that of the
first ancestor that hands one down, and it hands down all that it declares. So the field is that of the first class
that declares one if the classes before it that hand one down all descend from it. -/
theorem fields_are_handed_down (rootLabel : String) (sources : List ClassSource) {cls : Class} {schema : Schema}
    (made : cls ∈ ({ rootLabel } : Session).made sources) (offered : cls.schema? = some schema) (key : String) :
    ((schema.field? key).isSome = true ↔ ∃ body ∈ cls.order, Entries.contains key body.own = true) ∧
    (∀ field, schema.field? key = some field →
      Entries.find? key cls.body.handedDown = some field ∧
      ∃ given, Class.given? cls.body.own cls.ancestors key = some given ∧ field.Completes given) ∧
    ∀ declarer given, cls.order.find? (Entries.contains key ·.own) = some declarer →
      Entries.find? key declarer.own = some given →
      (∀ other, [other, declarer].Sublist cls.order → Entries.contains key other.handedDown = true →
        ∃ heir ∈ ({ rootLabel } : Session).made sources, heir.body = other ∧ declarer ∈ heir.order) →
      ∃ field, schema.field? key = some field ∧ field.Completes given := by
  obtain ⟨rfl, isSchema⟩ := Class.schema_of_schema? offered
  obtain ⟨family, -, -⟩ := (defines_run rootLabel sources).family
  have known {other : Class} (made : other ∈ ({ rootLabel } : Session).made sources) :
      other ∈ (({ rootLabel } : Session).made sources).reverse ++ [Class.base] :=
    List.mem_append_left _ (List.mem_reverse.mpr made)
  have traced := family.traced cls (known made)
  have declared := (traced.declared isSchema key).1
  refine ⟨⟨?_, ?_⟩, ?_, ?_⟩
  · intro has
    obtain ⟨field, has⟩ := Option.isSome_iff_exists.mp has
    exact family.declared_somewhere (known made) (declared ▸ has)
  · rintro ⟨body, inside, declares⟩
    rw [declared]
    exact family.declares_all (known made) isSchema inside declares
  · intro field has
    rw [declared] at has
    exact ⟨has, traced.handed_from has⟩
  · intro declarer given first declares inherit
    have inside := List.mem_of_find?_eq_some first
    have has : Entries.contains key declarer.own = true := by rw [Entries.contains, declares, Option.isSome_some]
    have handed := family.declares_all (known made) isSchema inside has
    obtain ⟨field, handed⟩ := Option.isSome_iff_exists.mp handed
    refine ⟨field, declared.trans handed, family.completes_first (known made) first declares ?_ handed⟩
    intro other between hands
    obtain ⟨heir, made, same, descends⟩ := inherit other between hands
    exact ⟨heir, known made, same, descends⟩

/-- A class of the bases. If a key is given, it has a field that is mapped to it. -/
def derived (name : String) (bases : List String) (mappedKey : Option String) : ClassSource where
  name := name
  label := name
  bases := bases
  isMixin := false
  fields := (mappedKey.map fun mapped => ("x", .scalar "string" "" mapped)).toList
  options := none

def diamond : List ClassSource := [
  derived "Base" [Schema.base.name] (some "base"), derived "Left" ["Base"] none,
  derived "Right" ["Base"] (some "right"), derived "Bottom" ["Left", "Right"] none]

theorem left_has_the_field_of_its_base :
    ∃ cls schema declarer given field, cls ∈ ({ rootLabel := "Base" } : Session).made diamond ∧ cls.schema? = some schema ∧
      cls.order.find? (Entries.contains "x" ·.own) = some declarer ∧ Entries.find? "x" declarer.own = some given ∧
      schema.field? "x" = some field ∧ field.Completes given := by
  have computed : ((({ rootLabel := "Base" } : Session).made diamond)[1]?.any fun cls =>
      cls.schema?.any fun _ => (cls.order.find? (Entries.contains "x" ·.own)).any fun declarer =>
      (Entries.find? "x" declarer.own).any fun _ =>
        declarer.id = 1 ∧ cls.ancestors.map Body.id = [1, Schema.base.id]) = true := by
    decide +kernel
  simp only [Option.any_eq_true, decide_eq_true_eq] at computed
  obtain ⟨cls, made, schema, offered, declarer, first, given, declares, id, ids⟩ := computed
  have within := List.mem_of_getElem? made
  have inherit : ∀ other, [other, declarer].Sublist cls.order → Entries.contains "x" other.handedDown = true →
      ∃ heir ∈ ({ rootLabel := "Base" } : Session).made diamond, heir.body = other ∧ declarer ∈ heir.order := by
    intro other between _
    cases between with
    | cons _ later =>
      have numbers := later.map Body.id
      rw [ids, List.map_cons, List.map_cons, id] at numbers
      have same := numbers.eq_of_length rfl
      simp [Schema.base] at same
    | cons_cons _ later => exact ⟨cls, within, rfl, List.mem_cons_of_mem _ (List.singleton_sublist.mp later)⟩
  obtain ⟨field, has, completes⟩ := (fields_are_handed_down "Base" diamond within offered "x").2.2 declarer given first
    declares inherit
  exact ⟨cls, schema, declarer, given, field, within, offered, first, declares, has, completes⟩

/-- In a diamond, the first class of the order that declares a field is not the one that it is taken from. -/
theorem diamond_keeps_the_farther_field :
    ∃ cls schema declarer given field, cls ∈ ({ rootLabel := "Base" } : Session).made diamond ∧ cls.schema? = some schema ∧
      cls.order.find? (Entries.contains "x" ·.own) = some declarer ∧ Entries.find? "x" declarer.own = some given ∧
      schema.field? "x" = some field ∧ given.mappedKey = "right" ∧ field.mappedKey = "base" ∧
      given.origin ≠ field.origin := by
  have computed : ((({ rootLabel := "Base" } : Session).made diamond)[3]?.any fun cls =>
      cls.schema?.any fun schema => (cls.order.find? (Entries.contains "x" ·.own)).any fun declarer =>
      (Entries.find? "x" declarer.own).any fun given => (schema.field? "x").any fun field =>
        given.mappedKey = "right" ∧ field.mappedKey = "base" ∧ given.origin ≠ field.origin) = true := by
    decide +kernel
  simp only [Option.any_eq_true, decide_eq_true_eq] at computed
  obtain ⟨cls, made, schema, offered, declarer, first, given, declares, field, has, differ⟩ := computed
  exact ⟨cls, schema, declarer, given, field, List.mem_of_getElem? made, offered, first, declares, has, differ⟩

end Session
end RecordAddress
