import Mathlib.Data.List.Chain
import RecordAddress.Proofs.Changes

/-! Reading elsewhere. A way to another place than the one that an edit changes reads the same before and
after, or can be taken neither before nor after. -/

namespace RecordAddress
open Value

namespace Slot

def isPosition : Slot → Bool
  | index _ | dash => true
  | key _ => false

/-- Two places of which none lies in the other, and the second in no array that the change moves elements of. -/
structure Apart (change : Edit) (slots others : List Slot) : Prop where
  notAbove : ¬ slots <+: others
  notBelow : ¬ others <+: slots
  notMoved : (∀ value, change ≠ .replace value) → ∀ above slot other beyond,
    slots = above ++ [slot] → others = above ++ other :: beyond → slot.isPosition = true → other.isPosition = false

variable {change : Edit} {slot other : Slot} {below beyond slots others : List Slot} {holder after : Value}

theorem Apart.tail (apart : Apart change (slot :: below) (slot :: beyond)) : Apart change below beyond where
  notAbove := fun within => apart.notAbove (List.cons_prefix_cons.mpr ⟨rfl, within⟩)
  notBelow := fun within => apart.notBelow (List.cons_prefix_cons.mpr ⟨rfl, within⟩)
  notMoved := fun moves above last other rest way otherWay =>
    apart.notMoved moves (slot :: above) last other rest (congrArg _ way) (congrArg _ otherWay)

theorem Apart.cons (apart : Apart change slots others) : ∃ other beyond, others = other :: beyond := by
  cases others with
  | nil => exact absurd List.nil_prefix apart.notBelow
  | cons other beyond => exact ⟨other, beyond, rfl⟩

theorem Apart.head (apart : Apart change [slot] (other :: beyond)) :
    other ≠ slot ∧ ((∀ value, change ≠ .replace value) → slot.isPosition = true → other.isPosition = false) := by
  refine ⟨?_, fun moves => apart.notMoved moves [] slot other beyond rfl rfl⟩
  rintro rfl
  exact apart.notAbove (List.cons_prefix_cons.mpr ⟨rfl, List.nil_prefix⟩)

theorem Apart.of_key (slots : List Slot) {name : String} (notAbove : ¬ (slots ++ [.key name]) <+: others)
    (notBelow : ¬ others <+: (slots ++ [.key name])) : Apart change (slots ++ [.key name]) others where
  notAbove := notAbove
  notBelow := notBelow
  notMoved := by
    rintro - above slot other beyond way - position
    obtain ⟨-, last⟩ := List.append_inj' way rfl
    obtain rfl := List.head_eq_of_cons_eq last
    cases position

theorem Edited.child_elsewhere (edited : slot.Edited change holder after) (elsewhere : other ≠ slot)
    (unmoved : (∀ value, change ≠ .replace value) → slot.isPosition = true → other.isPosition = false) :
    after.child? other = holder.child? other := by
  cases edited with
  | @written name value entries given =>
    cases other with
    | key otherName =>
      have names : name ≠ otherName := fun same => elsewhere (congrArg Slot.key same.symm)
      simp [child?, entries?, Entries.find?_put, names]
    | index | dash => rfl
  | @deleted name entries removing =>
    cases other with
    | key otherName =>
      have names : name ≠ otherName := fun same => elsewhere (congrArg Slot.key same.symm)
      simp [child?, entries?, Entries.find?_erase, names]
    | index | dash => rfl
  | @replaced position value items replacing inside =>
    cases other with
    | index otherPosition =>
      have positions : position ≠ otherPosition := fun same => elsewhere (congrArg Slot.index same.symm)
      simp [child?, items?, List.getElem?_set_ne positions]
    | key | dash => rfl
  | inserted adding | dropped adding | appended adding =>
    subst adding
    have named := unmoved (by simp) rfl
    cases other <;> first | rfl | cases named

end Slot

namespace Access

def collection? : Access → Option Collection
  | property _ _ collection => collection
  | _ => none

/-- The collection that a step needs to be right above it. -/
def kind? : Access → Option Collection
  | property .. => none
  | position _ | afterLast => some .array
  | entry _ | noEntry => some .map

/-- Whether a step can come right below another one: elements come below their collection, and properties below
what is none. -/
def Follows (above access : Access) : Prop :=
  access.kind? = above.collection?

variable {context : Context} {access : Access} {slot : Slot} {holder value : Value}

theorem property_of_follows {name key : String} (leads : access.slot? = some (.key name))
    (follows : Follows access (.entry key)) : ∃ mappedKey, access = .property (.text name) mappedKey (some .map) := by
  have isMap : access.collection? = some .map := follows.symm
  cases access with
  | property label mappedKey collection =>
    cases label <;> cases leads
    cases isMap
    exact ⟨mappedKey, rfl⟩
  | _ => cases isMap

private theorem settle_refuses {depth : Nat} {found : Option Value} {obstacle : Obstacle}
    (failed : access.settle depth found = .error obstacle) : ∃ mismatch, obstacle = .mismatch mismatch := by
  cases access <;> simp only [settle, needProperty, needElement] at failed
  case afterLast => cases failed
  all_goals
    repeat' split at failed
    all_goals cases failed
    all_goals exact ⟨.unset, rfl⟩

/-- In a record without objects that are no mappings, only what is missing or misshapen keeps a step from being taken. -/
theorem refused {depth : Nat} {obstacle : Obstacle} (leads : access.slot? = some slot) (plain : holder.isPlain = true)
    (failed : access.read context depth holder = .error obstacle) : ∃ mismatch, obstacle = .mismatch mismatch := by
  rw [read_slot leads plain] at failed
  split at failed
  · exact settle_refuses failed
  · cases failed
    exact ⟨_, rfl⟩

theorem read_plain {depth : Nat} (leads : access.slot? = some slot) (inside : slot ≠ .dash)
    (plain : holder.throughout isPlain = true) (reached : access.read context (depth + 1) holder = .ok value) :
    value.throughout isPlain = true := by
  cases unset : access.isUnsetIn context holder with
  | false => exact plain_child plain (child_of_read leads inside (check_of_throughout plain) unset reached)
  | true =>
    rcases read_below reached with ⟨isSet, -⟩ | ⟨-, -, _, _, kind, -, -, rfl⟩
    · cases unset.symm.trans isSet
    · cases kind <;> rfl

private theorem settle_present (leads : access.slot? = some slot) (inside : slot ≠ .dash) (present : value.isUnset = false)
    (there : value.isMissing = false) (depth : Nat) : access.settle depth (some value) = .ok value := by
  cases access with
  | property name mappedKey collection => simp [settle, needProperty, present]
  | position | entry => simp [settle, needElement, present, there]
  | afterLast =>
    cases leads
    exact absurd rfl inside
  | noEntry => cases leads

private theorem fits_of_child (leads : access.slot? = some slot) (found : holder.child? slot = some value) :
    access.fits holder = true := by
  cases access with
  | property name mappedKey collection =>
    cases name <;> cases leads
    cases holder <;> first | rfl | cases found
  | position index =>
    cases leads
    cases holder <;> first | rfl | cases found
  | afterLast => rfl
  | entry key =>
    cases leads
    cases holder <;> first | rfl | cases found
  | noEntry => cases leads

theorem read_of_child (leads : access.slot? = some slot) (plain : holder.isPlain = true)
    (found : holder.child? slot = some value) (present : value.isUnset = false) (there : value.isMissing = false)
    (depth : Nat) : access.read context depth holder = .ok value := by
  have inside : slot ≠ .dash := by
    rintro rfl
    cases found
  rw [read_slot leads plain, fits_of_child leads found, found]
  exact settle_present leads inside present there depth

end Access

namespace Slot
variable {change : Edit} {slot other : Slot} {holder after : Value}

theorem Edited.shape (edited : slot.Edited change holder after) :
    holder.isPlain = true ∧ after.isPlain = true ∧ ∀ access : Access, access.fits after = access.fits holder := by
  cases edited <;> exact ⟨rfl, rfl, fun access => by cases access <;> rfl⟩

end Slot

namespace EditedAt
variable {change : Edit} {slots : List Slot} {holder after : Value}

/-- What is changed inside is neither null nor the mark of an absent element, before or after. -/
theorem isSet (edited : EditedAt change slots holder after) :
    (holder.isUnset = false ∧ holder.isMissing = false) ∧ after.isUnset = false ∧ after.isMissing = false := by
  cases edited with
  | slot edited => cases edited <;> exact ⟨⟨rfl, rfl⟩, rfl, rfl⟩
  | madeUp made =>
    cases made with
    | stored => exact ⟨⟨rfl, rfl⟩, rfl, rfl⟩
    | left _ mapping _ => cases holder <;> first | exact ⟨⟨rfl, rfl⟩, rfl, rfl⟩ | cases mapping
  | @inside slot _ holder _ part found =>
    have behind : (holder.putChild slot part).child? slot = some part := by simp [child?_putChild found]
    exact ⟨(holder_of_child found).2, (holder_of_child behind).2⟩

end EditedAt

/-- Ways that do not lead through a collection that is made up, but to other entries of a map, or to properties of
an object where that is an array. -/
def MadeUpApart (change : Edit) (slots : List Slot) (way : List Access) (holder : Value) : Prop :=
  change ≠ .remove → ∀ above name slot before access beyond,
    slots = above ++ [.key name, slot] → (holder.at? (above ++ [.key name])).getD .null = .null →
    way = before ++ access :: beyond → before.map Access.slot? = (above ++ [.key name]).map some →
    ((∃ key, slot = .key key) ∧ ∃ key, access = .entry key) ∨ (slot.isPosition = true ∧ access.kind? = none)

theorem MadeUpApart.tail {change : Edit} {slot : Slot} {rest : List Slot} {access : Access} {way : List Access}
    {holder part : Value} (apart : MadeUpApart change (slot :: rest) (access :: way) holder)
    (leads : access.slot? = some slot) (found : holder.child? slot = some part) : MadeUpApart change rest way part := by
  intro given above name last before next beyond slots nothing way_ same
  apply apart given (slot :: above) name last (access :: before) next beyond
  · rw [slots]
    rfl
  · simpa [at?, found] using nothing
  · rw [way_]
    rfl
  · simp [leads, same]

namespace Route
variable {context : Context} {change : Edit} {access : Access} {way : List Access} {slot other : Slot}
  {slots others : List Slot} {holder after value part : Value}

/-- The record has not what its schema says. -/
def Refused (outcome : Except Failure Value) : Prop :=
  ∃ depth mismatch, outcome = .error ⟨depth, .mismatch mismatch⟩

/-- Both can be read, and are the same, or neither can be. -/
def Alike (before after : Except Failure Value) : Prop :=
  before = after ∨ Refused before ∧ Refused after

private theorem read_cons (depth : Nat) (count : way.length = depth) (reached : access.read context depth holder = .ok value) :
    read context (access :: way) holder = read context way value := by
  subst count
  simp only [read, reached]
  rfl

private theorem read_of_same_child (leads : access.slot? = some slot) (plain : holder.isPlain = true)
    (afterPlain : after.isPlain = true) (fits : access.fits after = access.fits holder)
    (same : after.child? slot = holder.child? slot) :
    read context (access :: way) holder = read context (access :: way) after := by
  simp only [read, Access.read_slot leads plain, Access.read_slot leads afterPlain, fits, same]

private theorem read_absent_entry {key : String} {entries : Entries Value} (absent : Entries.find? key entries = none) :
    read context (.entry key :: way) (.dict entries) =
      if way = [] then .ok .missing else .error ⟨way.length, .mismatch .unset⟩ := by
  simp only [read, Access.read_entry, entries?, absent, Option.getD_none]
  cases way with
  | nil => rfl
  | cons access rest => rfl

/-- The other entries of a map that is made up for one entry are absent before and after. -/
private theorem alike_beside_made_up {name key new : String} {mappedKey : Label} {entries : Entries Value}
    (isUnset : (Entries.find? name entries).getD .null = .null) (elsewhere : new ≠ key) :
    Alike
      (read context (.property (.text name) mappedKey (some .map) :: .entry key :: way) (.dict entries))
      (read context (.property (.text name) mappedKey (some .map) :: .entry key :: way)
        (.dict (Entries.put name (.dict [(new, value)]) entries))) := by
  have leads : (Access.property (.text name) mappedKey (some .map)).slot? = some (.key name) := rfl
  have stored : (Value.dict (Entries.put name (.dict [(new, value)]) entries)).child? (.key name) =
      some (.dict [(new, value)]) := by simp [child?, entries?, Entries.find?_put]
  have absent : Entries.find? key [(new, value)] = none := by simp [Entries.find?_cons, elsewhere]
  have after : read context (.entry key :: way) (.dict [(new, value)]) = _ := read_absent_entry absent
  rw [read_cons _ rfl (Access.read_of_child leads rfl stored rfl rfl _), after]
  have found : Access.read context _ (way.length + 1) (.dict entries) = _ := Access.read_slot leads rfl _
  simp only [Access.fits, isMapping, entries?, Option.isSome_some, ite_true, Access.settle, child?, Option.bind_some,
    isUnset] at found
  cases way with
  | nil =>
    rw [read_cons 1 rfl found]
    exact .inl rfl
  | cons access way =>
    refine .inr ⟨⟨way.length + 2, .unset, ?_⟩, way.length + 1, .unset, rfl⟩
    rw [read, List.length_cons, found]
    rfl

/-- What is not set, and is no collection, has nothing below. -/
private theorem refused_below_unset {next : Access} {name : String} {entries : Entries Value}
    (leads : access.slot? = some (.key name)) (single : access.collection? = none)
    (isUnset : (Entries.find? name entries).getD .null = .null) :
    Refused (read context (access :: next :: way) (.dict entries)) := by
  have nothing : access.read context (way.length + 1) (.dict entries) = .error (.mismatch .unset) := by
    rw [Access.read_slot leads rfl]
    cases access with
    | property label mappedKey collection =>
      cases label <;> cases leads
      cases single
      simp [Access.fits, isMapping, entries?, child?, Access.settle, Access.needProperty, isUnset, Value.isUnset]
    | entry key =>
      cases leads
      cases found : Entries.find? name entries with
      | none => simp [Access.fits, isMapping, entries?, child?, Access.settle, Access.needElement, found, isMissing]
      | some value =>
        rw [found, Option.getD_some] at isUnset
        subst isUnset
        simp [Access.fits, isMapping, entries?, child?, Access.settle, Access.needElement, found, Value.isUnset]
    | _ => cases leads
  exact ⟨_, .unset, by simp only [read, List.length_cons, nothing]; rfl⟩

/-- A list has no properties. -/
private theorem refused_in_list {items : List Value} (leads : access.slot? = some slot) (single : access.kind? = none) :
    Refused (read context (access :: way) (.list items)) := by
  have misfit : access.fits (.list items) = false := by cases access <;> first | rfl | cases single
  have refused : access.read context way.length (.list items) = .error (.mismatch (.expected access.shape)) := by
    rw [Access.read_slot leads rfl, misfit]
    rfl
  exact ⟨_, _, by simp only [read, refused]; rfl⟩

/-- Where a list is made up there is no object, before or after. -/
private theorem alike_at_made_up_list {next : Access} {name : String} {entries : Entries Value}
    (leads : access.slot? = some (.key name)) (leadsOn : next.slot? = some slot) (follows : access.Follows next)
    (single : next.kind? = none) (isUnset : (Entries.find? name entries).getD .null = .null) :
    Alike (read context (access :: next :: way) (.dict entries))
      (read context (access :: next :: way) (.dict (Entries.put name (.list [value]) entries))) := by
  have stored : (Value.dict (Entries.put name (.list [value]) entries)).child? (.key name) = some (.list [value]) := by
    simp [child?, entries?, Entries.find?_put]
  refine .inr ⟨refused_below_unset leads (follows.symm.trans single) isUnset, ?_⟩
  rw [read_cons _ rfl (Access.read_of_child leads rfl stored rfl rfl _)]
  exact refused_in_list leadsOn single

theorem way_of_slots (leads : way.map Access.slot? = (slot :: slots).map some) :
    ∃ access rest, way = access :: rest ∧ access.slot? = some slot ∧ rest.map Access.slot? = slots.map some := by
  cases way with
  | nil => cases leads
  | cons access rest =>
    simp only [List.map_cons, List.cons.injEq] at leads
    exact ⟨access, rest, rfl, leads⟩

theorem alike_elsewhere (edited : EditedAt change slots holder after)
    (leads : way.map Access.slot? = others.map some) (coherent : way.IsChain Access.Follows)
    (apart : Slot.Apart change slots others) (madeUpApart : MadeUpApart change slots way holder) :
    Alike (read context way holder) (read context way after) := by
  induction edited generalizing way others with
  | slot edited =>
    obtain ⟨other, beyond, rfl⟩ := apart.cons
    obtain ⟨access, rest, rfl, here, -⟩ := way_of_slots leads
    obtain ⟨elsewhere, unmoved⟩ := apart.head
    obtain ⟨plain, afterPlain, fits⟩ := edited.shape
    exact .inl (read_of_same_child here plain afterPlain (fits access) (edited.child_elsewhere elsewhere unmoved))
  | @madeUp name slot holder after made =>
    cases made with
    | left => exact .inl rfl
    | @stored value entries given isUnset noIndex =>
      obtain ⟨other, beyond, rfl⟩ := apart.cons
      obtain ⟨access, way, rfl, here, further⟩ := way_of_slots leads
      by_cases same : other = .key name
      · subst same
        obtain ⟨next, beyond, rfl⟩ := apart.tail.cons
        obtain ⟨nextAccess, way, rfl, there, -⟩ := way_of_slots further
        have nothing : ((Value.dict entries).at? ([] ++ [.key name])).getD .null = .null := by
          simpa [at?, child?, entries?] using isUnset
        have adding : change ≠ .remove := by
          rintro rfl
          cases given
        rcases madeUpApart adding [] name slot [access] nextAccess way rfl nothing rfl (by simp [here]) with
          ⟨⟨new, rfl⟩, key, rfl⟩ | ⟨position, single⟩
        · cases there
          have elsewhere : new ≠ key := fun same => apart.tail.head.1 (congrArg Slot.key same.symm)
          obtain ⟨mappedKey, rfl⟩ := Access.property_of_follows here coherent.rel
          exact alike_beside_made_up isUnset elsewhere
        · have made : slot.single value = .list [value] := by cases slot <;> first | rfl | cases position
          rw [made]
          exact alike_at_made_up_list here there coherent.rel single isUnset
      · have stored : Slot.Edited (.replace (slot.single value)) (.key name) (.dict entries) _ := .written rfl
        obtain ⟨plain, afterPlain, fits⟩ := stored.shape
        exact .inl (read_of_same_child here plain afterPlain (fits access) (stored.child_elsewhere same (by simp)))
  | @inside slot rest holder before part found edited ih =>
    obtain ⟨other, beyond, rfl⟩ := apart.cons
    obtain ⟨access, way, rfl, here, further⟩ := way_of_slots leads
    have changed := child?_putChild found part
    have behind : (holder.putChild slot part).child? slot = some part := by simp [changed]
    by_cases same : other = slot
    · subst same
      obtain ⟨⟨present, there⟩, stillPresent, stillThere⟩ := edited.isSet
      rw [read_cons _ rfl (Access.read_of_child here (holder_of_child found).1 found present there _),
        read_cons _ rfl (Access.read_of_child here (holder_of_child behind).1 behind stillPresent stillThere _)]
      exact ih further coherent.tail apart.tail (madeUpApart.tail here found)
    · refine .inl (read_of_same_child here (holder_of_child found).1 (holder_of_child behind).1
        (Access.fits_putChild access ..) ?_)
      rw [changed, if_neg (Ne.symm same)]

/-- Where all objects are mappings, nothing but the record keeps a way from being taken. -/
theorem refused_of_plain {failure : Failure} (leads : way.map Access.slot? = slots.map some)
    (inside : Slot.dash ∉ slots.dropLast) (plain : holder.throughout isPlain = true)
    (failed : read context way holder = .error failure) : Refused (.error failure) := by
  induction way generalizing slots holder with
  | nil => cases failed
  | cons access rest ih =>
    cases slots with
    | nil => cases leads
    | cons slot below =>
      simp only [List.map_cons, List.cons.injEq] at leads
      obtain ⟨here, further⟩ := leads
      cases reached : access.read context rest.length holder with
      | error obstacle =>
        obtain ⟨mismatch, rfl⟩ := Access.refused here (check_of_throughout plain) reached
        rw [read, reached] at failed
        cases failed
        exact ⟨_, mismatch, rfl⟩
      | ok value =>
        rw [read_cons _ rfl reached] at failed
        cases rest with
        | nil => cases failed
        | cons next rest =>
          obtain ⟨other, deeper, rfl⟩ : ∃ other deeper, below = other :: deeper := by
            cases below with
            | nil => cases further
            | cons other deeper => exact ⟨other, deeper, rfl⟩
          simp only [List.dropLast_cons_cons, List.mem_cons, not_or] at inside
          exact ih further inside.2 (Access.read_plain here (Ne.symm inside.1) plain reached) failed

end Route

end RecordAddress
