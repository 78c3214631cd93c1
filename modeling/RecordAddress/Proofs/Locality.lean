import RecordAddress.Proofs.Elsewhere
import RecordAddress.Proofs.Representations

/-! Edits inside one slot. Where all objects are mappings, an edit looks at nothing of a holder but its kind and
what is in the first slot of the way, and it changes nothing but that slot. So edits in different slots commute,
up to the order in which a mapping came by its keys. -/

namespace RecordAddress
open Value

namespace Value

/-- Values of one kind, whatever items or entries they hold. -/
inductive Like : Value → Value → Prop
  | refl {value : Value} : Like value value
  | list {items others : List Value} : Like (.list items) (.list others)
  | tuple {items others : List Value} : Like (.tuple items) (.tuple others)
  | dict {entries others : Entries Value} : Like (.dict entries) (.dict others)
  | view {entries others : Entries Value} : Like (.view entries) (.view others)

/-- What an edit in one of its slots makes of a holder. -/
def editChild (slot : Slot) (change : Edit) (holder : Value) : Value :=
  match slot, holder, change with
  | .index position, list items, change => list (change.onItems position items)
  | .dash, list items, .add value => list (items ++ [value])
  | .key name, dict entries, .remove => dict (Entries.erase name entries)
  | slot, holder, .add value | slot, holder, .replace value => holder.putChild slot value
  | _, holder, .remove => holder

/-- What a holder becomes by an edit that may do nothing to it. -/
def turn (slot : Slot) (effect : Option Edit) (holder : Value) : Value :=
  effect.elim holder (holder.editChild slot)

/-- Values that differ in nothing but the order in which mappings hold their keys. -/
inductive Reordered : Value → Value → Prop
  | same {value : Value} : Reordered value value
  | keys {hold : Entries Value → Value} {entries others : Entries Value} : Mapping hold → entries.Perm others →
      (∀ key, Entries.find? key entries = Entries.find? key others) → Reordered (hold entries) (hold others)
  | inside {slot : Slot} {holder part other : Value} : Reordered part other →
      Reordered (holder.putChild slot part) (holder.putChild slot other)

variable {holder other part : Value} {slot elsewhere : Slot} {change second : Edit}

namespace Like

theorem plain (like : Like holder other) : other.isPlain = holder.isPlain := by
  cases like <;> rfl

theorem fits (like : Like holder other) (access : Access) : access.fits other = access.fits holder := by
  cases like <;> cases access <;> rfl

theorem isMapping (like : Like holder other) : other.isMapping = holder.isMapping := by
  cases like <;> rfl

theorem symm (like : Like holder other) : Like other holder := by
  cases like <;> constructor

end Like

theorem editChild_like (slot : Slot) (change : Edit) (holder : Value) : Like holder (holder.editChild slot change) := by
  cases slot <;> cases holder <;> cases change <;> first | exact .refl | constructor

theorem turn_like (slot : Slot) (effect : Option Edit) (holder : Value) : Like holder (holder.turn slot effect) := by
  cases effect with
  | none => exact .refl
  | some change => exact editChild_like slot change holder

@[simp] theorem putChild_putChild (slot : Slot) (holder part later : Value) :
    (holder.putChild slot part).putChild slot later = holder.putChild slot later := by
  cases slot <;> cases holder <;> simp [putChild, Entries.put_put]

theorem editChild_replace (slot : Slot) (holder part : Value) :
    holder.editChild slot (.replace part) = holder.putChild slot part := by
  cases slot <;> cases holder <;> rfl

/-- Mappings have no positions, and all else has no keys. -/
theorem editChild_of_foreign (foreign : slot.isPosition = holder.isMapping) (change : Edit) :
    holder.editChild slot change = holder := by
  cases slot <;> cases holder <;> first | (cases foreign; done) | (cases change <;> rfl)

end Value

namespace Slot
variable {holder : Value} {slot other : Slot} {change second : Edit} {effect further : Option Edit}

/-- No items of an array are moved by the one edit while the other looks at them. -/
def Still (change : Edit) (slot other : Slot) : Prop :=
  slot.isPosition = true → other.isPosition = true → ∃ part, change = .replace part

theorem child?_editChild (apart : slot ≠ other) (still : Still change slot other) :
    (holder.editChild slot change).child? other = holder.child? other := by
  by_cases foreign : slot.isPosition = holder.isMapping
  · rw [editChild_of_foreign foreign]
  cases slot with
  | key name =>
    cases other with
    | key otherName =>
      have names : name ≠ otherName := fun same => apart (congrArg key same)
      cases holder with
      | dict entries | view entries =>
        cases change <;> simp [editChild, putChild, child?, entries?, Entries.find?_put, Entries.find?_erase, names]
      | _ => exact absurd rfl foreign
    | index | dash =>
      cases holder with
      | dict entries | view entries => cases change <;> rfl
      | _ => exact absurd rfl foreign
  | index position =>
    cases other with
    | key => cases holder <;> cases change <;> rfl
    | index otherPosition =>
      obtain ⟨part, rfl⟩ := still rfl rfl
      have positions : position ≠ otherPosition := fun same => apart (congrArg index same)
      cases holder with
      | list items | tuple items => simp [editChild_replace, putChild, child?, items?, List.getElem?_set_ne positions]
      | _ => rfl
    | dash => rfl
  | dash =>
    cases other with
    | key => cases holder <;> cases change <;> rfl
    | index =>
      obtain ⟨part, rfl⟩ := still rfl rfl
      cases holder <;> rfl
    | dash => rfl

private theorem editKeys_comm {name otherName : String} (apart : name ≠ otherName) (mapping : holder.isMapping = true) :
    Reordered ((holder.editChild (.key name) change).editChild (.key otherName) second)
      ((holder.editChild (.key otherName) second).editChild (.key name) change) := by
  cases holder with
  | dict entries =>
    cases change with
    | add value | replace value =>
      cases second with
      | add other | replace other => exact .keys .dict (Entries.put_comm apart value other entries) (Entries.find?_put_comm apart)
      | remove =>
        simp only [editChild, putChild, Entries.erase_put apart]
        exact .same
    | remove =>
      cases second with
      | add other | replace other =>
        simp only [editChild, putChild, Entries.erase_put apart.symm]
        exact .same
      | remove =>
        simp only [editChild, Entries.erase_comm name otherName]
        exact .same
  | view entries =>
    cases change with
    | add value | replace value =>
      cases second with
      | add other | replace other => exact .keys .view (Entries.put_comm apart value other entries) (Entries.find?_put_comm apart)
      | remove => exact .same
    | remove => cases second <;> exact .same
  | _ => cases mapping

private theorem putPositions_comm (position : slot.isPosition = true) (otherPosition : other.isPosition = true)
    (apart : slot ≠ other) (part later : Value) :
    (holder.putChild slot part).putChild other later = (holder.putChild other later).putChild slot part := by
  cases slot with
  | key => cases position
  | dash => rfl
  | index first =>
    cases other with
    | key => cases otherPosition
    | dash => rfl
    | index last =>
      have positions : first ≠ last := fun same => apart (congrArg index same)
      cases holder with
      | list items | tuple items => simp only [putChild, List.set_comm part later positions]
      | _ => rfl

/-- Edits in different slots commute, up to the order of keys. -/
theorem editChild_comm (apart : slot ≠ other) (still : Still change slot other) (stillToo : Still second other slot) :
    Reordered ((holder.editChild slot change).editChild other second)
      ((holder.editChild other second).editChild slot change) := by
  by_cases foreign : slot.isPosition = holder.isMapping
  · have after : slot.isPosition = (holder.editChild other second).isMapping := by
      rw [foreign, (editChild_like other second holder).isMapping]
    rw [editChild_of_foreign foreign, editChild_of_foreign after]
    exact .same
  by_cases foreignToo : other.isPosition = holder.isMapping
  · have after : other.isPosition = (holder.editChild slot change).isMapping := by
      rw [foreignToo, (editChild_like slot change holder).isMapping]
    rw [editChild_of_foreign foreignToo, editChild_of_foreign after]
    exact .same
  cases mapping : holder.isMapping with
  | true =>
    rw [mapping] at foreign foreignToo
    cases slot <;> cases other <;> first | exact absurd rfl foreign | exact absurd rfl foreignToo | skip
    next name otherName => exact editKeys_comm (fun same => apart (congrArg key same)) mapping
  | false =>
    have position : slot.isPosition = true := by simpa [mapping] using foreign
    have otherPosition : other.isPosition = true := by simpa [mapping] using foreignToo
    obtain ⟨part, rfl⟩ := still position otherPosition
    obtain ⟨later, rfl⟩ := stillToo otherPosition position
    simp only [editChild_replace, putPositions_comm position otherPosition apart]
    exact .same

theorem child?_turn (apart : slot ≠ other) (still : ∀ change ∈ effect, Still change slot other) :
    (holder.turn slot effect).child? other = holder.child? other := by
  cases effect with
  | none => rfl
  | some change => exact child?_editChild apart (still change rfl)

theorem turn_comm (apart : slot ≠ other) (still : ∀ change ∈ effect, Still change slot other)
    (stillToo : ∀ change ∈ further, Still change other slot) :
    Reordered ((holder.turn slot effect).turn other further) ((holder.turn other further).turn slot effect) := by
  cases effect with
  | none => exact .same
  | some change =>
    cases further with
    | none => exact .same
    | some second => exact editChild_comm apart (still change rfl) (stillToo second rfl)

end Slot

namespace Access
variable {context : Context} {access : Access} {slot : Slot} {holder other after : Value} {change : Edit}

/-- Holders of one kind that have the same in the slot of a step are read alike. -/
theorem read_like (leads : access.slot? = some slot) (plain : holder.isPlain = true) (like : Like holder other)
    (same : other.child? slot = holder.child? slot) (depth : Nat) :
    access.read context depth other = access.read context depth holder := by
  rw [read_slot leads plain, read_slot leads (like.plain.trans plain), like.fits, same]

theorem isUnsetIn_like (leads : access.slot? = some slot) (like : Like holder other)
    (same : other.child? slot = holder.child? slot) :
    access.isUnsetIn context other = access.isUnsetIn context holder := by
  cases access with
  | property name mappedKey collection =>
    cases name <;> cases leads
    cases like with
    | dict | view =>
      have found : Entries.find? _ _ = Entries.find? _ _ := same
      change Value.isUnset ((Entries.find? _ _).getD .null) = Value.isUnset ((Entries.find? _ _).getD .null)
      rw [found]
    | _ => rfl
  | _ => rfl

theorem write_dict {name : String} (leads : access.slot? = some (.key name)) (entries : Entries Value) :
    access.write change (.dict entries) = .ok ((Value.dict entries).editChild (.key name) change) := by
  cases access with
  | property label =>
    cases label <;> cases leads
    cases change <;> rfl
  | entry =>
    cases leads
    cases change <;> rfl
  | _ => cases leads

private theorem write_inside {index : Nat} {items others : List Value} (leads : access.slot? = some (.index index))
    (inside : index < items.length) (same : (Value.list others).child? (.index index) = (Value.list items).child? (.index index)) :
    access.write change (.list others) = .ok ((Value.list others).editChild (.index index) change) := by
  have bound : index < others.length := by
    have found : others[index]? = items[index]? := same
    rw [List.getElem?_eq_getElem inside] at found
    exact (List.getElem?_eq_some_iff.mp found).1
  cases access with
  | property label => cases label <;> cases leads
  | position =>
    cases leads
    rw [write_list, if_neg (Nat.not_le.mpr bound)]
    rfl
  | _ => cases leads

/-- A write that succeeds changes its slot alone, and does the same in every holder of the kind that has the same there. -/
theorem write_like (leads : access.slot? = some slot) (plain : holder.isPlain = true)
    (written : access.write change holder = .ok after) (like : Like holder other)
    (same : other.child? slot = holder.child? slot) :
    access.write change other = .ok (other.editChild slot change) := by
  cases write_edited leads plain written with
  | written | deleted => cases like <;> exact write_dict leads _
  | inserted _ inside | replaced _ inside | dropped _ inside => cases like <;> exact write_inside leads inside same
  | appended adding =>
    subst adding
    cases access with
    | property label => cases label <;> cases leads
    | afterLast => cases like <;> rfl
    | _ => cases leads

end Access

namespace Route
variable {context : Context} {access : Access} {slot : Slot} {holder prior after : Value} {change : Edit} {rest : List Access}

/-- What an edit does to the first holder on its way: nothing, or something in the slot of the first step. It moves no
items there unless the way ends there. -/
def Effect (change : Edit) (rest : List Access) (effect : Option Edit) : Prop :=
  effect = none ∨ (∃ part, effect = some (.replace part)) ∨ (rest = [] ∧ effect = some change)

private theorem editSlot_like {edited : Value} (leads : access.slot? = some slot) (plain : holder.isPlain = true)
    (done : editSlot context change access holder = .ok (prior, edited)) {other : Value} (like : Like holder other)
    (same : other.child? slot = holder.child? slot) :
    editSlot context change access other = .ok (prior, other.editChild slot change) := by
  simp only [editSlot, bind_eq_ok, mapError_eq_ok] at done ⊢
  obtain ⟨found, read, after, written, answer⟩ := done
  cases answer
  exact ⟨prior, (Access.read_like leads plain like same 0).trans read, _,
    Access.write_like leads plain written like same, rfl⟩

/-- What an edit does, and what it answers, depends on nothing but the kind of the first holder and what is in the
first slot. -/
theorem edit_like (leads : access.slot? = some slot) (inside : rest ≠ [] → slot ≠ .dash) (plain : holder.isPlain = true)
    (done : (edit context change access rest holder).2 = .ok prior) :
    ∃ effect, Effect change rest effect ∧ ∀ other, Like holder other → other.child? slot = holder.child? slot →
      edit context change access rest other = (other.turn slot effect, .ok prior) := by
  cases rest with
  | nil =>
    simp only [edit] at done
    split at done
    next found edited slotEdited =>
      cases done
      refine ⟨some change, .inr (.inr ⟨rfl, rfl⟩), fun other like same => ?_⟩
      simp only [edit, editSlot_like leads plain slotEdited like same, turn, Option.elim_some]
    next => cases done
  | cons next rest =>
    cases read : access.read context (rest.length + 1) holder with
    | error obstacle => simp [edit, read] at done
    | ok value =>
      have readToo {other : Value} (like : Like holder other) (same : other.child? slot = holder.child? slot) :
          access.read context (rest.length + 1) other = .ok value :=
        (Access.read_like leads plain like same _).trans read
      cases unset : access.isUnsetIn context holder with
      | false =>
        rw [edit_of_set read unset] at done
        have found := Access.child_of_read leads (inside (by simp)) plain unset read
        refine ⟨some (.replace (edit context change next rest value).1), .inr (.inl ⟨_, rfl⟩), fun other like same => ?_⟩
        have unsetToo := (Access.isUnsetIn_like leads like same).trans unset
        rw [edit_of_set (readToo like same) unsetToo, Access.absorb_slot leads (same.trans found), done, turn,
          Option.elim_some, editChild_replace]
      | true =>
        have unsetToo {other : Value} (like : Like holder other) (same : other.child? slot = holder.child? slot) :
            access.isUnsetIn context other = true :=
          (Access.isUnsetIn_like leads like same).trans unset
        have whole : edit context change access (next :: rest) holder = (_, .ok prior) := Prod.ext rfl done
        obtain ⟨inner, outcome⟩ := (edit_of_unset read unset).mp whole
        rcases outcome with ⟨removes, -⟩ | ⟨adds, writes⟩
        · refine ⟨none, .inl rfl, fun other like same => ?_⟩
          exact (edit_of_unset (readToo like same) (unsetToo like same)).mpr ⟨inner, .inl ⟨removes, rfl⟩⟩
        · refine ⟨some (.replace (edit context change next rest value).1), .inr (.inl ⟨_, rfl⟩), fun other like same => ?_⟩
          have writesToo := Access.write_like leads plain writes like same
          exact (edit_of_unset (readToo like same) (unsetToo like same)).mpr ⟨inner, .inr ⟨adds, writesToo⟩⟩

end Route
end RecordAddress
