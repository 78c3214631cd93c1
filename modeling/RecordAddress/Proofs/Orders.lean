import RecordAddress.Pointer.Parsing
import RecordAddress.Proofs.Grammar

/-! Orders, a record type that instances of the general theorems speak of: it has every kind of property,
events of three subtypes, and a parent that is an order again. -/

namespace RecordAddress.Orders

def field (name : String) (arrangement : Arrangement Schema) : Field Schema where
  arrangement := arrangement
  key := name
  name := name
  mappedKey := name

def word : Content Schema :=
  .scalar .string

def customer : Schema where
  id := 1
  name := "Customer"
  recordType := "Customer"
  typeProperty := "type"
  subtypes := []
  fields := [field "name" (.single word)]

def opened : Schema where
  id := 2
  name := "Opened"
  recordType := "Opened"
  typeProperty := "type"
  subtypes := []
  fields := [field "byWho" (.single word)]

/-- Its details are a map, while those of a shipment are an object. -/
def noted : Schema where
  id := 5
  name := "Noted"
  recordType := "Noted"
  typeProperty := "type"
  subtypes := []
  fields := [field "details" (.map { content := word })]

def shipped : Schema where
  id := 6
  name := "Shipped"
  recordType := "Shipped"
  typeProperty := "type"
  subtypes := []
  fields := [field "details" (.single (.nested (.schema customer)))]

def event : Schema where
  id := 3
  name := "Event"
  recordType := "Event"
  typeProperty := "kind"
  subtypes := [("OPENED", .schema opened), ("NOTED", .schema noted), ("SHIPPED", .schema shipped)]
  fields := [field "happenedOn" (.single (.scalar .datetime))]

def order : Schema where
  id := 4
  name := "Order"
  recordType := "Order"
  typeProperty := "type"
  subtypes := []
  fields := [
    field "customer" (.single (.nested (.schema customer))),
    field "tags" (.array { content := word }),
    field "notes" (.map { content := word }),
    field "events" (.array { content := .nested (.schema event) }),
    field "parent" (.single (.nested (.named "Order")))]

def registry : Registry where
  entries := [(.text "Customer", customer), (.text "Opened", opened), (.text "Event", event), (.text "Order", order)]

def container : Container where
  schema := order
  path := ""
  entries := Container.declaredEntries order
  place := some { ground := .schema order.id }

def events : Container where
  schema := event
  path := ""
  entries := Entries.put (some event.typeProperty) (Container.typeField event.typeProperty) (Container.declaredEntries event)
  variants := some event.subtypes
  place := some { ground := .schema event.id }

/-- The position after the last tag of an order. -/
def nextTag : Pointer :=
  let tags := container.bind (.property "tags") (field "tags" (.array { content := word }))
  .element (.property (.root container) "tags" tags none) "-" .afterLast

def note (key : String) : Pointer :=
  let notes := container.bind (.property "notes") (field "notes" (.map { content := word }))
  .element (.property (.root container) "notes" notes none) key (.key key)

theorem offers {schema : Schema} {name : String} {arrangement : Arrangement Schema} {node : Node}
    (declared : field name arrangement ∈ schema.fields) (leads : arrangement.Leads registry node) :
    schema.Offers registry name node :=
  .declared declared leads

def related : List Schema :=
  [order, customer, event, opened, noted, shipped]

private theorem related_opens {schema : Schema} (within : schema ∈ related) :
    schema.WellNamed ∧ ∀ path place, ∃ container, Container.ofSchema schema path place = .ok container := by
  simp only [related, List.mem_cons, List.not_mem_nil, or_false] at within
  rcases within with rfl | rfl | rfl | rfl | rfl | rfl <;>
    exact ⟨⟨by decide, by decide, by decide, by decide, by decide⟩, fun _ _ => ⟨_, rfl⟩⟩

private theorem target_related {schema : Schema} (within : schema ∈ related) {reference : Reference Schema}
    (refers : schema.Refers reference) : ∃ target, target ∈ related ∧ registry.target reference = .ok target := by
  have customers : ∃ target ∈ related, registry.target (.schema customer) = .ok target := ⟨customer, by simp [related], rfl⟩
  have events : ∃ target ∈ related, registry.target (.schema event) = .ok target := ⟨event, by simp [related], rfl⟩
  have orders : ∃ target ∈ related, registry.target (.named "Order") = .ok target := ⟨order, by simp [related], rfl⟩
  simp only [related, List.mem_cons, List.not_mem_nil, or_false] at within
  cases refers with
  | field declared content =>
    rcases within with rfl | rfl | rfl | rfl | rfl | rfl <;>
      simp only [order, customer, event, opened, noted, shipped, List.mem_cons, List.not_mem_nil, or_false] at declared
    · rcases declared with rfl | rfl | rfl | rfl | rfl <;> cases content <;> assumption
    all_goals
      subst declared
      cases content
    exact customers
  | subtype listed =>
    rcases within with rfl | rfl | rfl | rfl | rfl | rfl <;>
      simp only [order, customer, event, opened, noted, shipped, List.mem_cons, List.not_mem_nil, or_false] at listed
    rcases listed with same | same | same <;> cases same
    · exact ⟨opened, by simp [related], rfl⟩
    · exact ⟨noted, by simp [related], rfl⟩
    · exact ⟨shipped, by simp [related], rfl⟩

theorem order_complete : order.Complete registry :=
  .of_closed (· ∈ related) (by simp [related]) (fun _ within => (related_opens within).1)
    (fun _ within => (related_opens within).2) fun _ within _ => target_related within

example : ({ registry } : Context).root order = .ok container := rfl

example : ({ registry } : Context).root event = .ok events := rfl

example : (Pointer.parse { registry } container true (.text "/tags/-")).outcome = .ok nextTag := rfl

end RecordAddress.Orders
