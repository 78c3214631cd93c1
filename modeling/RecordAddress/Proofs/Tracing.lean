import RecordAddress.Proofs.Ancestry
import RecordAddress.Proofs.Keeping
import RecordAddress.Proofs.PriorValue

/-! What is reported while a record is read through a pointer. Each pointer of the chain is reported with what it reads
itself. Only where a collection is not set, right above the last step, an empty one is reported in its place. -/

namespace RecordAddress
open Value

namespace Access
variable {context : Context} {access : Access} {depth : Nat} {holder value : Value}

/-- Nothing stands in for what is read further up. -/
theorem read_further (read : access.read context (depth + 2) holder = .ok value) (later : Nat) :
    access.read context later holder = .ok value := by
  rcases read_below read with ⟨isSet, -⟩ | ⟨-, last, -⟩
  · exact read_at_every_depth isSet read later
  · cases last

end Access

namespace Route
variable {context : Context} {above below way : List Access} {record value : Value} {further count : Nat}

/-- What is read at the end of a way that goes on by some further steps. -/
def approach (context : Context) (further : Nat) : List Access → Value → Except Failure Value
  | [], value => .ok value
  | access :: rest, holder => do
    let value ← (access.read context (rest.length + further) holder).mapError (Failure.mk (rest.length + further))
    approach context further rest value

theorem read_append :
    read context (above ++ below) record = (approach context below.length above record >>= read context below) := by
  induction above generalizing record with
  | nil => rfl
  | cons access above ih =>
    simp only [List.cons_append, read, approach, List.length_append, bind_assoc, ih]

theorem approach_whole : approach context 0 way record = read context way record := by
  have same : read context (way ++ []) record = (approach context 0 way record >>= read context []) := read_append
  rw [List.append_nil] at same
  rw [same]
  cases approach context 0 way record <;> rfl

/-- On a way that goes on the same is read as at its end, unless the last step finds a collection that is not set and
one more step follows. -/
theorem approach_eq_ok (reached : approach context (further + 1) way record = .ok value) :
    ∃ own, read context way record = .ok own ∧
      ((value = own ∧ (way ≠ [] → own.isUnset = false)) ∨
        (further = 0 ∧ own = .null ∧ ∃ name mappedKey kind,
          way.getLast? = some (.property name mappedKey (some kind)) ∧ value = Access.emptyOf kind)) := by
  induction way generalizing record with
  | nil =>
    cases reached
    exact ⟨_, rfl, .inl ⟨rfl, fun further => absurd rfl further⟩⟩
  | cons access rest ih =>
    simp only [approach, bind_eq_ok, mapError_eq_ok] at reached
    obtain ⟨part, first, reached⟩ := reached
    cases rest with
    | nil =>
      obtain rfl := Except.ok.inj reached
      rw [List.length_nil, Nat.zero_add] at first
      rcases Access.read_below first with ⟨-, found, present⟩ | ⟨-, last, name, mappedKey, kind, rfl, unset, rfl⟩
      · exact ⟨part, by rw [read_last, found]; rfl, .inl ⟨rfl, fun _ => present⟩⟩
      · have null : (Access.property name mappedKey (some kind)).read context 0 record = .ok .null := by
          simp only [Access.read, unset]
          rfl
        exact ⟨.null, by rw [read_last, null]; rfl, .inr ⟨last, rfl, name, mappedKey, kind, rfl, rfl⟩⟩
    | cons next rest =>
      have deep : (next :: rest).length + (further + 1) = rest.length + further + 2 := by
        rw [List.length_cons]
        omega
      rw [deep] at first
      obtain ⟨own, found, told⟩ := ih reached
      refine ⟨own, by rw [read_step (Access.read_further first _), found], ?_⟩
      simpa using told

/-- The values that are met on a way are what is read at the ends of its beginnings. -/
theorem approach_of_trace (reported : (trace context way record)[count]? = some value) :
    count ≤ way.length ∧ approach context (way.length - count) (way.take count) record = .ok value := by
  induction way generalizing record count with
  | nil =>
    cases count with
    | zero => exact ⟨Nat.le_refl 0, congrArg Except.ok (Option.some.inj reported)⟩
    | succ => cases reported
  | cons access rest ih =>
    rw [trace] at reported
    cases count with
    | zero =>
      refine ⟨Nat.zero_le _, congrArg Except.ok ?_⟩
      split at reported <;> exact Option.some.inj reported
    | succ count =>
      split at reported
      next part first =>
        obtain ⟨inside, reached⟩ := ih reported
        have depth : (rest.take count).length + (rest.length - count) = rest.length := by
          rw [List.length_take]
          omega
        refine ⟨Nat.succ_le_succ inside, ?_⟩
        rw [List.length_cons, Nat.add_sub_add_right, List.take_succ_cons, approach, depth, first]
        exact reached
      next => cases reported

/-- As many values are met as there are steps that could be taken, and the record before them. -/
theorem length_trace (context : Context) (way : List Access) (record : Value) :
    (trace context way record).length +
      (match read context way record with
        | .ok _ => 0
        | .error failure => failure.depth + 1) = way.length + 1 := by
  induction way generalizing record with
  | nil => rfl
  | cons access rest ih =>
    rw [trace]
    cases first : access.read context rest.length record with
    | error obstacle =>
      rw [read, first]
      exact Nat.add_comm 1 (rest.length + 1)
    | ok part =>
      rw [read_step first, List.length_cons, List.length_cons, ← ih part, Nat.add_right_comm]

end Route

namespace Pointer
variable {context : Context} {pointer link : Pointer} {record value : Value} {position depth count : Nat}

theorem parent_route (amendments : Amendments) (pointer : Pointer) :
    pointer.parent.route amendments = (pointer.route amendments).dropLast := by
  cases pointer <;> simp [Pointer.parent, route]

theorem length_route (amendments : Amendments) (pointer : Pointer) :
    (pointer.route amendments).length = pointer.tokens.length := by
  induction pointer with
  | root => rfl
  | property _ _ _ _ ih | element _ _ _ ih => simp [route, tokens, ih]

theorem route_ancestor (amendments : Amendments) (pointer : Pointer) (depth : Nat) :
    (pointer.ancestor depth).route amendments = (pointer.route amendments).take (pointer.tokens.length - depth) := by
  rw [← length_route amendments]
  exact drops_to_ancestor (parent_route amendments) pointer depth

/-- The empty collection that stands in where the collection of the pointer is not set. -/
def standIn? (amendments : Amendments) : Pointer → Option Value
  | property _ _ target _ => (amendments.collection? target).map Access.emptyOf
  | root _ | element .. => none

theorem standIn_of_route {amendments : Amendments} {name mappedKey : Label} {kind : Collection}
    (last : (pointer.route amendments).getLast? = some (.property name mappedKey (some kind))) :
    pointer.standIn? amendments = some (Access.emptyOf kind) := by
  cases pointer with
  | root => cases last
  | property parent token target children =>
    rw [route, List.getLast?_concat, Option.some.injEq, accessOf, Access.property.injEq] at last
    rw [standIn?, last.2.2, Option.map_some]
  | element parent token index =>
    rw [route, List.getLast?_concat, Option.some.injEq] at last
    unfold elementAccess at last
    split at last <;> cases index <;> cases last

theorem trace_getElem? : (pointer.trace context record)[position]? = some (link, value, depth) ↔
    pointer.chain[position]? = some link ∧
      (Route.trace context (pointer.route context.amendments) record)[position]? = some value ∧
      depth = pointer.chain.length - position - 1 := by
  simp only [trace, List.getElem?_mapIdx, Option.map_eq_some_iff, List.getElem?_zip_eq_some, Prod.exists, Prod.mk.injEq]
  constructor
  · rintro ⟨_, _, ⟨links, reported⟩, rfl, rfl, rfl⟩
    exact ⟨links, reported, rfl⟩
  · rintro ⟨links, reported, rfl⟩
    exact ⟨_, _, ⟨links, reported⟩, rfl, rfl, rfl⟩

/-- What is reported at a pointer above the last one is what is read through it, but for the empty collection. -/
theorem reported_above {further : Nat}
    (reached : Route.approach context (further + 1) (link.route context.amendments) record = .ok value) :
    ∃ own, link.get context record = .ok own ∧
      value = if further + 1 = 1 ∧ own.isUnset = true then (link.standIn? context.amendments).getD own else own := by
  obtain ⟨own, read, ⟨rfl, isSet⟩ | ⟨rfl, rfl, name, mappedKey, kind, last, rfl⟩⟩ := Route.approach_eq_ok reached
  · refine ⟨value, get_eq_ok.mpr read, ?_⟩
    split
    next unset =>
      cases link with
      | root => rfl
      | property | element => simp [isSet (by simp [route])] at unset
    next => rfl
  · refine ⟨.null, get_eq_ok.mpr read, ?_⟩
    rw [standIn_of_route last]
    rfl

theorem length_told (context : Context) (pointer : Pointer) (record : Value) : (pointer.trace context record).length +
    (match Route.read context (pointer.route context.amendments) record with
      | .ok _ => 0
      | .error failure => failure.depth + 1) = pointer.chain.length := by
  have whole := Route.length_trace context (pointer.route context.amendments) record
  rw [length_route, ← length_chain] at whole
  rw [trace, List.length_mapIdx, List.length_zip, Nat.min_eq_right (Nat.le.intro whole), whole]

/-- Where nothing stands in, what is reported with a pointer is what is read through it. -/
theorem told_link (told : (pointer.trace context record)[position]? = some (link, value, depth)) :
    pointer.chain[position]? = some link ∧ position + 1 + depth = pointer.chain.length ∧
    ∃ own, link.get context record = .ok own ∧
      value = if depth = 1 ∧ own.isUnset = true then (link.standIn? context.amendments).getD own else own := by
  obtain ⟨here, met, rfl⟩ := trace_getElem?.mp told
  obtain ⟨inside, reached⟩ := Route.approach_of_trace met
  rw [length_route] at inside reached
  have total := length_chain pointer
  refine ⟨here, by omega, ?_⟩
  obtain rfl := Option.some.inj ((chain_getElem? inside).symm.trans here)
  have left : pointer.tokens.length - (pointer.tokens.length - position) = position := Nat.sub_sub_self inside
  rw [← left, ← route_ancestor, left] at reached
  cases rest : pointer.tokens.length - position with
  | zero =>
    rw [rest, Route.approach_whole] at reached
    exact ⟨value, get_eq_ok.mpr reached, by rw [if_neg (by omega)]⟩
  | succ further =>
    rw [rest] at reached
    obtain ⟨own, read, same⟩ := reported_above reached
    have depth : pointer.chain.length - position - 1 = further + 1 := by omega
    exact ⟨own, read, by rw [same, depth]⟩

theorem told_all (read : pointer.get context record = .ok value) :
    (pointer.trace context record).length = pointer.chain.length := by
  rw [← length_told context pointer record, get_eq_ok.mp read]
  rfl

theorem told_last (read : pointer.get context record = .ok value) :
    (pointer.trace context record).getLast? = some (pointer, value, 0) := by
  have total := told_all read
  have chain := length_chain pointer
  obtain ⟨⟨link, found, depth⟩, last⟩ : ∃ told, (pointer.trace context record)[pointer.tokens.length]? = some told :=
    ⟨_, List.getElem?_eq_getElem (by omega)⟩
  obtain ⟨here, count, own, ownRead, same⟩ := told_link last
  rw [chain_getElem? (Nat.le_refl _), Nat.sub_self, ancestor, Option.some.injEq] at here
  obtain rfl := here
  obtain rfl : depth = 0 := by omega
  obtain rfl := Except.ok.inj (read.symm.trans ownRead)
  rw [List.getLast?_eq_getElem?, total, chain, Nat.add_sub_cancel, last, same, if_neg (by simp)]

theorem read_above (read : pointer.get context record = .ok value) (within : link ∈ pointer.chain) :
    ∃ own, link.get context record = .ok own := by
  obtain ⟨position, here⟩ := List.mem_iff_getElem?.mp within
  have inside : position < (pointer.trace context record).length := by
    rw [told_all read]
    exact (List.getElem?_eq_some_iff.mp here).1
  obtain ⟨same, -, own, ownRead, -⟩ := told_link (List.getElem?_eq_getElem inside)
  obtain rfl := Option.some.inj (here.symm.trans same)
  exact ⟨own, ownRead⟩

/-- The first pointer that is not reported is the one that the fault names. -/
theorem untold {failure : Route.Failure} (failed : Route.read context (pointer.route context.amendments) record = .error failure) :
    pointer.chain[(pointer.trace context record).length]? = some (pointer.ancestor failure.depth) := by
  have total : (pointer.trace context record).length + (failure.depth + 1) = pointer.tokens.length + 1 := by
    rw [← length_chain, ← length_told context pointer record, failed]
  have above : pointer.tokens.length - (pointer.trace context record).length = failure.depth := by omega
  rw [chain_getElem? (by omega), above]

/-- While a record is read through a pointer, the pointers of its chain are reported in their order, each with the number
of those after it: all of them if the record can be read, and else the ones before the pointer that the fault names. What
is reported with a pointer is what is read through it, but for the empty collection that stands in, right above the last
pointer, for one that is not set. So where a pointer can be read, all above it can. -/
theorem trace_follows_chain (context : Context) (pointer : Pointer) (record : Value) :
    let told := pointer.trace context record
    (∀ position link value depth, told[position]? = some (link, value, depth) →
      pointer.chain[position]? = some link ∧ position + 1 + depth = pointer.chain.length ∧
      ∃ own, link.get context record = .ok own ∧
        value = if depth = 1 ∧ own.isUnset = true then (link.standIn? context.amendments).getD own else own) ∧
    (∀ value, pointer.get context record = .ok value →
      told.length = pointer.chain.length ∧ told.getLast? = some (pointer, value, 0) ∧
      ∀ link ∈ pointer.chain, ∃ own, link.get context record = .ok own) ∧
    (∀ fault, pointer.get context record = .error fault →
      told.length < pointer.chain.length ∧ ∀ data, fault = .data data → pointer.chain[told.length]? = some data.pointer) := by
  refine ⟨fun _ _ _ _ => told_link, ?_, ?_⟩
  · intro value read
    exact ⟨told_all read, told_last read, fun _ => read_above read⟩
  · intro fault unread
    obtain ⟨failure, failed, rfl⟩ := mapError_eq_error.mp unread
    have next := untold failed
    refine ⟨(List.getElem?_eq_some_iff.mp next).1, fun data same => ?_⟩
    simp only [faultAt] at same
    split at same <;> cases same
    exact next

/-- Notes that are not set are null, and reported as an empty map on the way to one of them. Where they are a number, the
way to one of them ends there. -/
theorem unset_notes_are_reported_empty :
    let note := Orders.note "first"
    let unset := Value.dict []
    let unfit := Value.dict [("notes", .int 3)]
    (note.trace {} unset)[1]? = some (note.parent, .dict [], 1) ∧
    (∃ own, note.parent.get {} unset = .ok own ∧
      Value.dict [] = if 1 = 1 ∧ own.isUnset = true then (note.parent.standIn? {}).getD own else own) ∧
    note.parent.get {} unset = .ok .null ∧
    note.get {} unset = .ok .missing ∧ (∀ link ∈ note.chain, ∃ own, link.get {} unset = .ok own) ∧
    note.get {} unfit = .error (.data ⟨note, .expected .map⟩) ∧ note.chain[(note.trace {} unfit).length]? = some note := by
  intro note unset unfit
  have told : (note.trace {} unset)[1]? = some (note.parent, .dict [], 1) := rfl
  have read : note.get {} unset = .ok .missing := rfl
  have unread : note.get {} unfit = .error (.data ⟨note, .expected .map⟩) := rfl
  obtain ⟨each, whole, -⟩ := trace_follows_chain {} note unset
  have first := (trace_follows_chain {} note unfit).2.2 _ unread
  exact ⟨told, (each _ _ _ _ told).2.2, rfl, read, (whole _ read).2.2, unread, first.2 _ rfl⟩

end Pointer
end RecordAddress
