/-! One order for a class and all of its ancestors. It keeps the order of every base and the order
in which the bases are listed; where these disagree there is none. -/

namespace RecordAddress.Linearization
variable {α : Type} (identity : α → Nat)

/-- Whether some order wants another class before this one. -/
def isHeldBack (candidate : α) (orders : List (List α)) : Bool :=
  orders.any fun order => order.tail.any fun later => identity later = identity candidate

/-- The first class in front of an order that no order holds back. -/
def next? (orders : List (List α)) : Option α :=
  orders.findSome? fun order =>
    match order with
    | [] => none
    | candidate :: _ => if isHeldBack identity candidate orders then none else some candidate

def dropFront (taken : α) : List α → List α
  | [] => []
  | first :: rest => if identity first = identity taken then rest else first :: rest

def takeOut (taken : α) (orders : List (List α)) : List (List α) :=
  orders.map (dropFront identity taken)

def remaining (orders : List (List α)) : Nat :=
  orders.flatten.length

private theorem next?_mem {orders : List (List α)} {taken : α} (found : next? identity orders = some taken) :
    ∃ rest, taken :: rest ∈ orders := by
  obtain ⟨order, member, picked⟩ := List.exists_of_findSome?_eq_some found
  cases order with
  | nil => cases picked
  | cons candidate rest =>
    simp only at picked
    split at picked
    · cases picked
    · cases picked
      exact ⟨rest, member⟩

private theorem length_dropFront_le (taken : α) (order : List α) :
    (dropFront identity taken order).length ≤ order.length := by
  cases order with
  | nil => simp [dropFront]
  | cons first rest =>
    simp only [dropFront]
    split <;> simp

private theorem remaining_takeOut_le (taken : α) (orders : List (List α)) :
    remaining (takeOut identity taken orders) ≤ remaining orders := by
  induction orders with
  | nil => simp [takeOut, remaining]
  | cons order rest ih =>
    have shorter := length_dropFront_le identity taken order
    simp only [takeOut, remaining, List.map_cons, List.flatten_cons, List.length_append] at ih ⊢
    omega

private theorem remaining_takeOut_lt {taken : α} {orders : List (List α)}
    (present : ∃ rest, taken :: rest ∈ orders) :
    remaining (takeOut identity taken orders) < remaining orders := by
  obtain ⟨tail, member⟩ := present
  induction orders with
  | nil => cases member
  | cons order rest ih =>
    have others := remaining_takeOut_le identity taken rest
    have shorter := length_dropFront_le identity taken order
    simp only [takeOut, remaining, List.map_cons, List.flatten_cons, List.length_append] at ih others ⊢
    rcases List.mem_cons.mp member with same | inside
    · subst same
      simp only [dropFront, if_true, List.length_cons]
      omega
    · have fewer := ih inside
      omega

/-- Merges the orders, always taking the first class that none of them holds back. -/
def merge? (orders : List (List α)) : Option (List α) :=
  if orders.all List.isEmpty then some []
  else match _picked : next? identity orders with
    | none => none
    | some taken => (merge? (takeOut identity taken orders)).map (taken :: ·)
termination_by remaining orders
decreasing_by exact remaining_takeOut_lt identity (next?_mem identity _picked)

/-- The common order of the ancestors that the bases bring, the bases among them. -/
def ofBases? (orders : List (List α)) (bases : List α) : Option (List α) :=
  merge? identity (orders ++ [bases])

end RecordAddress.Linearization
