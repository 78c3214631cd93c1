import RecordAddress.ArrayIndex
import RecordAddress.Value
import RecordAddress.Text.Quoted

/-! How values read in messages. Text inside another value is quoted, text on its own is not. A number
of too many digits does not read at all, nor does a value that it is in. -/

namespace RecordAddress

namespace Value

def nullWord := "None"

def boolWord (value : Bool) : String :=
  if value then "True" else "False"

def missingWord := "MISSING"

/-- A number in decimal, within the limit that holds for reading one too. -/
def numeral? (value : Int) : Option String :=
  if (toString value.natAbs).length ≤ ArrayIndex.digitLimit then some (toString value) else none

theorem numeral?_eq_some {value : Int} {numeral : String} :
    numeral? value = some numeral ↔ (toString value.natAbs).length ≤ ArrayIndex.digitLimit ∧ toString value = numeral := by
  simp [numeral?]

theorem numeral?_of_nat {n : Nat} (short : (toString n).length ≤ ArrayIndex.digitLimit) :
    numeral? n = some (toString n) :=
  numeral?_eq_some.mpr ⟨short, rfl⟩

mutual
def written? : Value → Option String
  | null => some nullWord
  | bool value => some (boolWord value)
  | int value => numeral? value
  | decimal value => some value.display
  | text value => some (Text.quoted value)
  | list items => (writtenItems? items).map fun items => "[" ++ String.intercalate ", " items ++ "]"
  | tuple items => (writtenItems? items).map fun
    | [item] => "(" ++ item ++ ",)"
    | items => "(" ++ String.intercalate ", " items ++ ")"
  | set [] => some "set()"
  | set items => (writtenItems? items).map fun items => "\x7b" ++ String.intercalate ", " items ++ "\x7d"
  | bytes octets => some (Text.quotedOctets octets)
  | dict entries => (writtenEntries? entries).map fun entries => "\x7b" ++ String.intercalate ", " entries ++ "\x7d"
  | view entries =>
    (writtenEntries? entries).map fun entries => "mappingproxy(\x7b" ++ String.intercalate ", " entries ++ "\x7d)"
  | object _ | description .. => some "<Obj>"
  | missing => some missingWord
  | location tokens _ => some ("JSONPointer(" ++ Text.quoted tokens.toLocation.text ++ ")")
  | pointer target => some target.display

def writtenItems? : List Value → Option (List String)
  | [] => some []
  | item :: rest => do return (← item.written?) :: (← writtenItems? rest)

def writtenEntries? : List (String × Value) → Option (List String)
  | [] => some []
  | (key, value) :: rest => do return (Text.quoted key ++ ": " ++ (← value.written?)) :: (← writtenEntries? rest)
end

def display? : Value → Option String
  | text value => some value
  | view entries => written? (dict entries)
  | location tokens _ => some tokens.toLocation.text
  | pointer target => some target.text
  | value => value.written?

end Value
end RecordAddress
