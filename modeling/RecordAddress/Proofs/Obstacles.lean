import RecordAddress.Proofs.Tracing

/-! Where reading a record fails. The pointer that a fault names is the first one of the chain that cannot be gone on
from: it is null or missing itself, or what is above it has not the shape that it is looked up in. -/

namespace RecordAddress
open Value

def Shape.fits : Shape → Value → Bool
  | object, value => value.isObject
  | array, value => value.isArray
  | map, value => value.isMapping

namespace Access
variable {context : Context} {access : Access} {depth : Nat} {holder found value : Value} {obstacle : Obstacle}
  {mismatch : Mismatch} {shape : Shape}

/-- The shape that a step asks of what it is taken from. Nothing is asked for what comes after all elements. -/
def shape? : Access → Option Shape
  | property .. => some .object
  | position _ => some .array
  | afterLast => none
  | entry _ | noEntry => some .map

theorem read_of_unfit (asks : access.shape? = some shape) (unfit : shape.fits holder = false) (depth : Nat) :
    access.read context depth holder = .error (.mismatch (.expected shape)) := by
  cases access <;> cases asks <;> simp only [Shape.fits] at unfit <;> simp only [Access.read, readProperty, unfit] <;> rfl

theorem needElement_eq_error (failed : needElement depth found = .error obstacle) :
    depth ≠ 0 ∧ obstacle = .mismatch .unset ∧ (found = .null ∨ found = .missing) := by
  unfold needElement at failed
  split at failed
  next nothing =>
    cases failed
    simp only [Bool.and_eq_true, Bool.or_eq_true, decide_eq_true_eq] at nothing
    refine ⟨nothing.1, rfl, nothing.2.imp null_of_isUnset fun absent => ?_⟩
    cases found <;> first | rfl | cases absent
  next => cases failed

theorem needProperty_eq_error {collection : Option Collection} (failed : needProperty collection depth found = .error obstacle) :
    depth ≠ 0 ∧ obstacle = .mismatch .unset ∧ found = .null := by
  unfold needProperty at failed
  split at failed
  next nothing =>
    simp only [Bool.and_eq_true, decide_eq_true_eq] at nothing
    refine ⟨nothing.1, ?_, null_of_isUnset nothing.2⟩
    cases collection with
    | none => exact (Except.error.inj failed).symm
    | some kind =>
      by_cases last : depth = 1
      · cases (if_pos last).symm.trans failed
      · exact (Except.error.inj ((if_neg last).symm.trans failed)).symm
  next => cases failed

private theorem element_eq_mismatch (failed : needElement depth found = .error (.mismatch mismatch)) :
    depth ≠ 0 ∧ mismatch = .unset ∧ ∃ own, needElement 0 found = .ok own ∧ (own = .null ∨ own = .missing) := by
  obtain ⟨deep, same, nothing⟩ := needElement_eq_error failed
  cases same
  exact ⟨deep, rfl, found, rfl, nothing⟩

private theorem readProperty_eq_mismatch {name mappedKey : Label}
    (failed : readProperty context name mappedKey holder = .error (.mismatch mismatch)) :
    holder.isObject = false ∧ mismatch = .expected .object := by
  cases unfit : holder.isObject with
  | false =>
    simp only [readProperty, unfit] at failed
    cases failed
    exact ⟨rfl, rfl⟩
  | true =>
    have broken {operation : Except Breakdown Value} : attempt operation ≠ .error (.mismatch mismatch) := by
      cases operation <;> simp [attempt]
    simp only [readProperty, unfit] at failed
    cases mapping : holder.isMapping with
    | true =>
      simp only [mapping] at failed
      cases name with
      | text name => exact absurd failed broken
      | other | unusable => cases failed
    | false =>
      simp only [mapping] at failed
      cases mappedKey with
      | text key => exact absurd failed broken
      | other | unusable => cases failed

/-- A mismatch is told by the shape of what the step is taken from, or there is nothing to go on from after it. -/
theorem read_eq_mismatch (failed : access.read context depth holder = .error (.mismatch mismatch)) :
    (∃ shape, access.shape? = some shape ∧ shape.fits holder = false ∧ mismatch = .expected shape) ∨
    (depth ≠ 0 ∧ mismatch = .unset ∧
      ∃ own, access.read context 0 holder = .ok own ∧ (own = .null ∨ own = .missing)) := by
  cases access with
  | property name mappedKey collection =>
    simp only [Access.read] at failed ⊢
    cases reached : readProperty context name mappedKey holder with
    | error obstacle =>
      rw [reached] at failed
      cases failed
      obtain ⟨unfit, same⟩ := readProperty_eq_mismatch reached
      exact .inl ⟨.object, rfl, unfit, same⟩
    | ok found =>
      rw [reached] at failed
      obtain ⟨deep, same, nothing⟩ := needProperty_eq_error failed
      cases same
      exact .inr ⟨deep, rfl, found, rfl, .inl nothing⟩
  | position index =>
    rw [read_position] at failed ⊢
    split at failed
    next => exact .inr (element_eq_mismatch failed)
    next shape =>
      cases failed
      exact .inl ⟨.array, rfl, by rw [Shape.fits, isArray, shape]; rfl, rfl⟩
  | afterLast => cases failed
  | entry key =>
    rw [read_entry] at failed ⊢
    split at failed
    next => exact .inr (element_eq_mismatch failed)
    next shape =>
      cases failed
      exact .inl ⟨.map, rfl, by rw [Shape.fits, isMapping, shape]; rfl, rfl⟩
  | noEntry =>
    rw [read_noEntry] at failed ⊢
    split at failed
    next => exact .inr (element_eq_mismatch failed)
    next shape =>
      cases failed
      exact .inl ⟨.map, rfl, by rw [Shape.fits, isMapping, shape]; rfl, rfl⟩

end Access

namespace Route
variable {context : Context} {way : List Access} {record value : Value} {failure : Failure} {further : Nat}

/-- Far enough from the end of a way the same is met however far the way goes on. -/
theorem approach_further (reached : approach context (further + 2) way record = .ok value) (later : Nat) :
    approach context later way record = .ok value := by
  induction way generalizing record with
  | nil => exact reached
  | cons access rest ih =>
    simp only [approach, bind_eq_ok, mapError_eq_ok] at reached ⊢
    obtain ⟨part, first, reached⟩ := reached
    exact ⟨part, Access.read_further first _, ih reached⟩

theorem approach_next (reached : approach context (further + 1) way record = .ok value) :
    approach context 1 way record = .ok value := by
  cases further with
  | zero => exact reached
  | succ further => exact approach_further reached 1

/-- A way that cannot be read can be gone up to the step that fails. -/
theorem read_eq_error (failed : read context way record = .error failure) :
    ∃ above access below holder, way = above ++ access :: below ∧
      approach context (below.length + 1) above record = .ok holder ∧
      access.read context below.length holder = .error failure.obstacle ∧ failure.depth = below.length := by
  induction way generalizing record with
  | nil => cases failed
  | cons access rest ih =>
    cases first : access.read context rest.length record with
    | error obstacle =>
      rw [read, first] at failed
      cases failed
      exact ⟨[], access, rest, record, rfl, rfl, first, rfl⟩
    | ok part =>
      rw [read_step first] at failed
      obtain ⟨above, last, below, holder, rfl, reached, refused, depth⟩ := ih failed
      refine ⟨access :: above, last, below, holder, rfl, ?_, refused, depth⟩
      rw [List.length_append, List.length_cons] at first
      rw [approach, first]
      exact reached

end Route

namespace Pointer
variable {context : Context} {pointer : Pointer} {record : Value}

/-- The shape that the value above a pointer must have for the pointer to be looked up in it. -/
def shapeAbove? (amendments : Amendments) : Pointer → Option Shape
  | root _ => none
  | property .. => some .object
  | element parent _ index =>
    if amendments.isStray parent then some .map
    else match index with
      | .position _ => some .array
      | .afterLast => none
      | .key _ => some .map

theorem shapeAbove_of_route {amendments : Amendments} {above : List Access} {access : Access}
    (way : pointer.route amendments = above ++ [access]) : pointer.shapeAbove? amendments = access.shape? := by
  cases pointer with
  | root => simp [route] at way
  | property parent token target children =>
    obtain ⟨-, rfl⟩ := List.append_singleton_inj.mp way
    rfl
  | element parent token index =>
    obtain ⟨-, rfl⟩ := List.append_singleton_inj.mp way
    simp only [shapeAbove?, elementAccess]
    cases amendments.isStray parent <;> cases index <;> rfl

theorem get_further (pointer : Pointer) (record : Value) {above : List Access} {access : Access} {holder : Value}
    (way : pointer.route context.amendments = above ++ [access])
    (reached : Route.approach context 1 above record = .ok holder) :
    pointer.get context record =
      (access.read context 0 holder).mapError fun obstacle => pointer.faultAt ⟨0, obstacle⟩ := by
  rw [get, way, Route.read_append, List.length_singleton, reached]
  show (Route.read context [access] holder).mapError _ = _
  rw [Route.read_last]
  cases access.read context 0 holder <;> rfl

/-- The pointer that a failure is told by, its own step being the one that fails. -/
theorem failing_link {failure : Route.Failure}
    (failed : Route.read context (pointer.route context.amendments) record = .error failure) :
    failure.depth < pointer.tokens.length ∧ ∃ above access holder,
      (pointer.ancestor failure.depth).route context.amendments = above ++ [access] ∧
      Route.approach context (failure.depth + 1) above record = .ok holder ∧
      access.read context failure.depth holder = .error failure.obstacle := by
  obtain ⟨above, access, below, holder, way, reached, refused, depth⟩ := Route.read_eq_error failed
  have length := length_route context.amendments pointer
  rw [way, List.length_append, List.length_cons] at length
  have front : pointer.tokens.length - failure.depth = (above ++ [access]).length := by
    rw [List.length_append, List.length_singleton]
    omega
  refine ⟨by omega, above, access, holder, ?_, by rwa [depth], by rwa [depth]⟩
  rw [route_ancestor, front, way.trans (List.append_cons above access below), List.take_left]

/-- What is above a step, as it is read by itself. It is null where an empty collection stands in for it. -/
theorem parent_read {link : Pointer} {above : List Access} {access : Access} {further : Nat} {holder : Value}
    (way : link.route context.amendments = above ++ [access])
    (reached : Route.approach context (further + 1) above record = .ok holder) :
    ∃ own, link.parent.get context record = .ok own ∧ (holder = own ∨ own = .null) := by
  obtain ⟨own, read, met⟩ := Route.approach_eq_ok reached
  refine ⟨own, ?_, met.imp And.left fun made => made.2.1⟩
  rw [get_eq_ok, parent_route, way, List.dropLast_concat]
  exact read

/-- The pointer that a fault names is one below the root, and what is above it can be read. Either the pointer leads to
nothing that one could go on from, and more of the way is left, or what is above has not the shape that the pointer is
looked up in, so that it cannot be read either. The message tells which, and names the one that is to blame. -/
theorem read_faults_name_the_obstacle {fault : DataFault} (failed : pointer.get context record = .error (.data fault)) :
    fault.pointer ∈ pointer.chain ∧ fault.pointer.isRoot = false ∧
    ∃ above, fault.pointer.parent.get context record = .ok above ∧
      ((fault.pointer ∈ pointer.chain.dropLast ∧
          (fault.pointer.get context record = .ok .null ∨ fault.pointer.get context record = .ok .missing) ∧
          fault.message = "No property value at \"" ++ fault.pointer.text ++ "\".") ∨
        (∃ shape, fault.pointer.shapeAbove? context.amendments = some shape ∧ shape.fits above = false ∧
          fault.pointer.get context record = .error (.data fault) ∧
          fault.message = "Expected " ++ shape.phrase ++ " at \"" ++ fault.pointer.parent.text ++ "\".")) := by
  obtain ⟨failure, unread, same⟩ := mapError_eq_error.mp failed
  obtain ⟨inside, above, access, holder, way, reached, refused⟩ := failing_link unread
  cases blame : failure.obstacle with
  | broken breakdown =>
    rw [faultAt, blame] at same
    cases same
  | mismatch mismatch =>
    rw [faultAt, blame] at same
    cases same
    rw [blame] at refused
    have lower : (pointer.ancestor failure.depth).isRoot = false := by
      cases link : pointer.ancestor failure.depth with
      | root => simp [link, route] at way
      | property | element => rfl
    obtain ⟨own, ownRead, met⟩ := parent_read way reached
    have read := get_further _ record way (Route.approach_next reached)
    refine ⟨ancestor_in_chain (Nat.le_of_lt inside), lower, own, ownRead, ?_⟩
    rcases Access.read_eq_mismatch refused with ⟨shape, asks, unfit, rfl⟩ | ⟨further, rfl, value, found, nothing⟩
    · refine .inr ⟨shape, (shapeAbove_of_route way).trans asks, ?_, ?_, rfl⟩
      · rcases met with rfl | rfl
        · exact unfit
        · cases shape <;> rfl
      · rw [read, Access.read_of_unfit asks unfit]
        rfl
    · rw [found] at read
      refine .inl ⟨ancestor_before (Nat.le_of_lt inside) further, ?_, rfl⟩
      rcases nothing with rfl | rfl
      · exact .inl read
      · exact .inr read

/-- The name of a customer is not reached where the customer is not set, and the customer is to blame. Where the notes are
a number they can be read, and the note that is looked up in them cannot. -/
theorem unset_customer_is_to_blame :
    let unset := Value.dict []
    let unfit := Value.dict [("notes", .int 3)]
    let note := Orders.note "first"
    ∃ name customer, (parse { registry := Orders.registry } Orders.container true (.text "/customer/name")).outcome = .ok name ∧
      name.parent = customer ∧ name.get {} unset = .error (.data ⟨customer, .unset⟩) ∧ customer ∈ name.chain ∧
      (∃ above, customer.parent.get {} unset = .ok above) ∧
      DataFault.message ⟨customer, .unset⟩ = "No property value at \"/customer\"." ∧
      note.get {} unfit = .error (.data ⟨note, .expected .map⟩) ∧ note.isRoot = false ∧
      (∃ above, note.parent.get {} unfit = .ok above) ∧
      DataFault.message ⟨note, .expected .map⟩ = "Expected a map at \"/notes\"." := by
  intro unset unfit note
  obtain ⟨name, customer, parsed, parent, unread, message⟩ : ∃ name customer,
      (parse { registry := Orders.registry } Orders.container true (.text "/customer/name")).outcome = .ok name ∧
      name.parent = customer ∧ name.get {} unset = .error (.data ⟨customer, .unset⟩) ∧
      DataFault.message ⟨customer, .unset⟩ = "No property value at \"/customer\"." := ⟨_, _, rfl, rfl, rfl, rfl⟩
  have missed : note.get {} unfit = .error (.data ⟨note, .expected .map⟩) := rfl
  obtain ⟨within, -, above, read, -⟩ := read_faults_name_the_obstacle unread
  obtain ⟨-, lower, notes, notesRead, -⟩ := read_faults_name_the_obstacle missed
  exact ⟨name, customer, parsed, parent, unread, within, ⟨above, read⟩, message, missed, lower, ⟨notes, notesRead⟩, rfl⟩

end Pointer
end RecordAddress
