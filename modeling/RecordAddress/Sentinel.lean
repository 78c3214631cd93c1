import RecordAddress.Value.Display

/-! Marks that stand for values which are not there. No two marks are equal, even those that are
made alike, and every mark is untrue. -/

namespace RecordAddress

structure Sentinel where
  name : Value := .text "_MISSING"
  /-- The variable that holds the mark, if it can be found again by it. -/
  variableName : Option String := none

namespace Sentinel

def heldBy? (sentinel : Sentinel) : Option String :=
  sentinel.variableName.filter (· ≠ "")

/-- How the mark reads, unless its name has a number of too many digits in it. -/
def display? (sentinel : Sentinel) : Option String :=
  sentinel.heldBy? <|> sentinel.name.written?.map fun name => "Sentinel(" ++ name ++ ")"

/-- A mark that does not read is shown as nothing. -/
def display (sentinel : Sentinel) : String :=
  sentinel.display?.getD ""

end Sentinel
end RecordAddress
