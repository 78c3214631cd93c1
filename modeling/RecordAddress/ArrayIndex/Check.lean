import RecordAddress.ArrayIndex
import RecordAddress.Value

/-! Checks of any values for being array index tokens. -/

namespace RecordAddress
namespace ArrayIndex

def ofValue (dashAllowed : Bool) : Value → Except Fault ArrayIndex
  | .text token => ofText dashAllowed token
  | _ => .error .notText

def toValue : ArrayIndex → Value
  | position index => .int index
  | afterLast => .text "-"

end ArrayIndex

/-- A check for array index tokens, with or without the dash. -/
structure ArrayIndexCheck where
  dashAllowed : Bool := true

namespace ArrayIndexCheck

def display (check : ArrayIndexCheck) : String :=
  if check.dashAllowed then "<ArrayIndexTrafaret>" else "<ArrayIndexTrafaret(allow_dash=False)>"

def run (check : ArrayIndexCheck) (value : Value) : Except ArrayIndex.Fault ArrayIndex :=
  ArrayIndex.ofValue check.dashAllowed value

/-- Whether the check passes. A number of too many digits is neither valid nor invalid. -/
def isValid (check : ArrayIndexCheck) (value : Value) : Except ArrayIndex.Fault Bool :=
  match check.run value with
  | .ok _ => .ok true
  | .error .tooManyDigits => .error .tooManyDigits
  | .error _ => .ok false

/-- The checked index, or the message of what is wrong with it. -/
def extract (check : ArrayIndexCheck) (value : Value) : Except ArrayIndex.Fault Value :=
  match check.run value with
  | .ok index => .ok index.toValue
  | .error fault => match fault.message? with
    | some message => .ok (.text message)
    | none => .error fault

end ArrayIndexCheck
end RecordAddress
