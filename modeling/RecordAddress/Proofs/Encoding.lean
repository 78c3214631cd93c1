import RecordAddress.Proofs.Outcomes
import RecordAddress.Value.Json

/-! JSON text of values that hold pointers. It is the text of the value that has the text of each pointer in its place,
and null in the place of each missing mark. There is none exactly if something that JSON has no form for occurs in the
value, or a number that is too long to be written. -/

namespace RecordAddress.Value

/-- What the value consists of. A pointer is read as a whole. -/
def children : Value → List Value
  | list items | tuple items | set items => items
  | dict entries | view entries | object entries => entries.map Prod.snd
  | _ => []

mutual
/-- The value with texts in the place of pointers, and null in the place of missing marks. -/
def spelled : Value → Value
  | pointer target => text target.text
  | location tokens _ => text tokens.toLocation.text
  | missing => null
  | list items => list (spelledItems items)
  | tuple items => tuple (spelledItems items)
  | set items => set (spelledItems items)
  | dict entries => dict (spelledEntries entries)
  | view entries => view (spelledEntries entries)
  | object attributes => object (spelledEntries attributes)
  | value => value

def spelledItems : List Value → List Value
  | [] => []
  | item :: rest => item.spelled :: spelledItems rest

def spelledEntries : List (String × Value) → List (String × Value)
  | [] => []
  | (key, value) :: rest => (key, value.spelled) :: spelledEntries rest
end

variable {layout : Layout} {depth : Nat} {value part : Value} {kind : Unserializable} {items : List Value}
  {entries : Entries Value}

/-- The line that an entry takes. -/
def member (layout : Layout) (entry : String × Except Unserializable String) : Except Unserializable String :=
  entry.2.map fun value => Text.json layout.asciiOnly entry.1 ++ ": " ++ value

end RecordAddress.Value
