import RecordAddress.Pointer.Access
import RecordAddress.Proofs.Orders
import RecordAddress.Proofs.Reading

/-! Edits take the way that reading takes. What keeps a value from being read keeps it from being edited,
and an edit answers with the value that could be read before it. -/

namespace RecordAddress
open Value

variable {context : Context}

namespace Route

theorem edit_error {change : Edit} {access : Access} {rest : List Access} {holder : Value} {failure : Failure}
    (failed : read context (access :: rest) holder = .error failure) :
    (edit context change access rest holder).2 = .error failure := by
  induction rest generalizing access holder with
  | nil =>
    cases reached : access.read context 0 holder with
    | error obstacle =>
      simp only [read, List.length_nil, reached] at failed
      cases failed
      simp only [edit, editSlot, reached]
      rfl
    | ok value =>
      simp only [read, List.length_nil, reached] at failed
      cases failed
  | cons next rest ih =>
    cases reached : access.read context (rest.length + 1) holder with
    | error obstacle =>
      simp only [read, List.length_cons, reached] at failed
      cases failed
      simp only [edit, reached]
    | ok value =>
      rw [read, List.length_cons, reached] at failed
      have below := ih failed
      simp only [edit, reached]
      split <;> simp only [below]

theorem edit_prior {change : Edit} {access : Access} {rest : List Access} {holder prior : Value}
    (done : (edit context change access rest holder).2 = .ok prior) :
    read context (access :: rest) holder = .ok prior := by
  induction rest generalizing access holder with
  | nil =>
    simp only [edit] at done
    split at done
    next found edited slot =>
      cases done
      simp only [editSlot, bind_eq_ok, mapError_eq_ok] at slot
      obtain ⟨_, reached, _, _, same⟩ := slot
      cases same
      simp only [read, List.length_nil, reached]
      rfl
    next => cases done
  | cons next rest ih =>
    simp only [edit] at done
    split at done
    next => cases done
    next value reached =>
      rw [read, List.length_cons, reached]
      apply ih
      split at done
      · split at done
        next found given outcome change =>
          split at done
          · cases done
            exact outcome
          · cases done
        next => exact done
      · exact done

/-- A way that goes on by one step reads the step from what the way itself reads, but from an empty
collection where that is not set. -/
theorem read_append_step {route : List Access} {last : Access} {record holder value : Value}
    (whole : read context (route ++ [last]) record = .ok value) (reached : read context route record = .ok holder) :
    last.read context 0 holder = .ok value ∨
    (holder = .null ∧ ∃ kind, last.read context 0 (Access.emptyOf kind) = .ok value) := by
  induction route generalizing record with
  | nil =>
    cases reached
    simp only [List.nil_append, read, List.length_nil, bind_eq_ok, mapError_eq_ok, Except.ok.injEq] at whole
    obtain ⟨found, read, rfl⟩ := whole
    exact .inl read
  | cons access rest ih =>
    simp only [List.cons_append, read, List.length_append, List.length_singleton, bind_eq_ok, mapError_eq_ok] at whole reached
    obtain ⟨middle, deep, whole⟩ := whole
    obtain ⟨settled, shallow, reached⟩ := reached
    rcases Access.read_below deep with ⟨isSet, found, -⟩ | ⟨-, empty, name, mappedKey, kind, rfl, unset, rfl⟩
    · suffices same : settled = middle by
        subst same
        exact ih whole reached
      cases rest with
      | nil => exact Except.ok.inj (shallow.symm.trans found)
      | cons next rest =>
        rcases Access.read_below shallow with ⟨-, other, -⟩ | ⟨isUnset, -⟩
        · exact Except.ok.inj (other.symm.trans found)
        · rw [isSet] at isUnset
          cases isUnset
    · -- only the last step of the shorter way finds nothing, and it reads null
      obtain rfl := List.eq_nil_of_length_eq_zero empty
      simp only [Access.read, List.length_nil, unset] at shallow
      cases shallow
      cases reached
      simp only [List.nil_append, read, List.length_nil, bind_eq_ok, mapError_eq_ok, Except.ok.injEq] at whole
      obtain ⟨found, read, rfl⟩ := whole
      exact .inr ⟨rfl, kind, read⟩

theorem read_to_end {route : List Access} {record value : Value}
    (whole : read context (route ++ [.afterLast]) record = .ok value) : value = .missing := by
  induction route generalizing record with
  | nil => cases whole; rfl
  | cons access rest ih =>
    simp only [List.cons_append, read, bind_eq_ok, mapError_eq_ok] at whole
    obtain ⟨middle, -, whole⟩ := whole
    exact ih whole

end Route

namespace Pointer

/-- Where a pointer leads to nothing, and what is read there instead: null for a property, and the mark
of an absent element for the rest. -/
inductive Absent (context : Context) (record : Value) : Pointer → Value → Prop
  | inMapping {parent : Pointer} {token : String} {target : Property} {children : Option Container}
      {holder : Value} {entries : Entries Value} {name : String} :
      parent.get context record = .ok holder → holder.entries? = some entries →
      (context.amendments.name target).label = .text name → (Entries.find? name entries).getD .null = .null →
      Absent context record (.property parent token target children) .null
  | inObject {parent : Pointer} {token : String} {target : Property} {children : Option Container}
      {attributes : Entries Value} {key : String} :
      parent.get context record = .ok (.object attributes) →
      (context.amendments.mappedKey target).label = .text key → (Entries.find? key attributes).getD .null = .null →
      Absent context record (.property parent token target children) .null
  | pastEnd {parent : Pointer} {token : String} {index : Nat} {holder : Value} {items : List Value} :
      parent.get context record = .ok holder → holder.items? = some items → items.length ≤ index →
      Absent context record (.element parent token (.position index)) .missing
  | noEntry {parent : Pointer} {token key : String} {holder : Value} {entries : Entries Value} :
      parent.get context record = .ok holder → holder.entries? = some entries → Entries.find? key entries = none →
      Absent context record (.element parent token (.key key)) .missing
  | afterLast {pointer : Pointer} :
      context.amendments.isDash pointer = true → Absent context record pointer .missing
  | inUnset {parent : Pointer} {token : String} {index : ElementIndex} :
      parent.get context record = .ok .null → Absent context record (.element parent token index) .missing

theorem get_eq_ok {pointer : Pointer} {record value : Value} :
    pointer.get context record = .ok value ↔ Route.read context (pointer.route context.amendments) record = .ok value :=
  mapError_eq_ok

private theorem read_element_of_empty {isStray : Bool} {index : ElementIndex} {kind : Collection} {value : Value}
    (found : (elementAccess isStray index).read context 0 (Access.emptyOf kind) = .ok value) : value = .missing := by
  cases isStray <;> cases index <;> cases kind <;> cases found <;> rfl

private theorem read_element_of_null {isStray : Bool} {index : ElementIndex} {value : Value}
    (found : (elementAccess isStray index).read context 0 .null = .ok value) : value = .missing := by
  cases isStray <;> cases index <;> cases found
  rfl

private theorem access_of_dash {pointer : Pointer} (dash : context.amendments.isDash pointer = true) :
    ∃ route, pointer.route context.amendments = route ++ [.afterLast] := by
  cases pointer with
  | root container => cases dash
  | property parent token target children => cases dash
  | element parent token index =>
    simp only [Amendments.isDash, isDash, index?, Bool.and_eq_true, Bool.not_eq_true', decide_eq_true_eq,
      Option.some.injEq] at dash
    obtain ⟨rfl, straight⟩ := dash
    have straight : context.amendments.isStray parent = false := straight
    exact ⟨parent.route context.amendments, by simp [route, elementAccess, straight, ElementIndex.access]⟩

/-- What is read through a pointer that leads to nothing is the mark for that. -/
theorem read_of_absent {pointer : Pointer} {record value mark : Value}
    (absent : Absent context record pointer mark) (read : pointer.get context record = .ok value) : value = mark := by
  rw [get_eq_ok] at read
  cases absent with
  | @inMapping _ _ _ _ holder entries _ parent shape named nothing =>
    have reached := Route.read_append_step read (get_eq_ok.mp parent)
    rcases reached with reached | ⟨rfl, -⟩
    · cases holder <;> simp only [entries?, Option.some.injEq, reduceCtorEq] at shape
      all_goals
        subst shape
        simp only [accessOf, named] at reached
        change Except.ok ((Entries.find? _ _).getD Value.null) = _ at reached
        rw [nothing] at reached
        exact (Except.ok.inj reached).symm
    · cases shape
  | inObject parent mapped nothing =>
    have reached := Route.read_append_step read (get_eq_ok.mp parent)
    rcases reached with reached | ⟨impossible, -⟩
    · simp only [accessOf, mapped] at reached
      change Except.ok ((Entries.find? _ _).getD Value.null) = _ at reached
      rw [nothing] at reached
      exact (Except.ok.inj reached).symm
    · cases impossible
  | @pastEnd parent _ index holder items reachable shape beyond =>
    rcases Route.read_append_step read (get_eq_ok.mp reachable) with reached | ⟨-, kind, reached⟩
    · cases stray : context.amendments.isStray parent with
      | false =>
        simp only [elementAccess, stray, Bool.false_eq_true, ite_false, ElementIndex.access, Access.read_position, shape,
          List.getElem?_eq_none beyond] at reached
        exact (Access.needElement_eq_ok.mp reached).1.symm
      | true =>
        simp only [elementAccess, stray, ite_true, Access.read_noEntry] at reached
        split at reached
        · exact (Access.needElement_eq_ok.mp reached).1.symm
        · cases reached
    · exact read_element_of_empty reached
  | @noEntry parent _ key holder entries reachable shape nothing =>
    rcases Route.read_append_step read (get_eq_ok.mp reachable) with reached | ⟨-, kind, reached⟩
    · have way : elementAccess (context.amendments.isStray parent) (.key key) = .entry key := by
        cases context.amendments.isStray parent <;> rfl
      rw [way, Access.read_entry, shape] at reached
      simp only [nothing] at reached
      exact (Access.needElement_eq_ok.mp reached).1.symm
    · exact read_element_of_empty reached
  | afterLast dash =>
    obtain ⟨route, whole⟩ := access_of_dash dash
    rw [whole] at read
    exact Route.read_to_end read
  | inUnset reachable =>
    rcases Route.read_append_step read (get_eq_ok.mp reachable) with reached | ⟨-, kind, reached⟩
    · exact read_element_of_null reached
    · exact read_element_of_empty reached

/-- Edits agree with reading. Whatever keeps a pointer from being read keeps it from being edited, with the
same fault, and an edit answers with what could be read before: null for a property that is not set, and
the mark of absence for an element that is not there. -/
theorem edit_agrees_with_get (context : Context) (pointer : Pointer) (change : Edit) (record : Value)
    (proper : pointer.misuse? context.amendments change = none) :
    (∀ fault, pointer.get context record = .error fault →
      (pointer.edit context change record).2 = .error fault) ∧
    (∀ prior, (pointer.edit context change record).2 = .ok prior →
      pointer.get context record = .ok prior ∧ ∀ mark, Absent context record pointer mark → prior = mark) := by
  have walk : ∀ access rest, pointer.route context.amendments = access :: rest →
      (pointer.edit context change record).2 = (Route.edit context change access rest record).2.mapError pointer.faultAt := by
    intro access rest way
    simp only [edit, proper, way]
  cases way : pointer.route context.amendments with
  | nil =>
    have here : pointer.get context record = .ok record := by rw [get_eq_ok, way]; rfl
    have kept : (pointer.edit context change record).2 = .ok record := by simp only [edit, proper, way]
    rw [here, kept]
    constructor
    · intro fault impossible
      cases impossible
    · intro prior same
      cases same
      exact ⟨rfl, fun mark absent => read_of_absent absent here⟩
  | cons access rest =>
    rw [walk access rest way]
    constructor
    · intro fault unread
      obtain ⟨failure, failed, rfl⟩ := mapError_eq_error.mp unread
      rw [way] at failed
      rw [Route.edit_error failed]
      rfl
    · intro prior done
      have read : pointer.get context record = .ok prior := by
        rw [get_eq_ok, way]
        exact Route.edit_prior (mapError_eq_ok.mp done)
      exact ⟨read, fun mark absent => read_of_absent absent read⟩

theorem first_tag_had_no_prior :
    Orders.nextTag.misuse? {} (.add (.text "new")) = none ∧
    (Orders.nextTag.edit {} (.add (.text "new")) (.dict [])).2 = .ok .missing ∧
    Orders.nextTag.get {} (.dict []) = .ok .missing :=
  ⟨rfl, rfl, ((edit_agrees_with_get {} Orders.nextTag (.add (.text "new")) (.dict []) rfl).2 .missing rfl).1⟩

end Pointer
end RecordAddress
