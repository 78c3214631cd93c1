/-! Tokens that address the elements of an array: a number in decimal without leading zeros, or a
dash for the position after the last element. -/

namespace RecordAddress

inductive ArrayIndex where
  | position (index : Nat)
  | afterLast
  deriving DecidableEq, Repr

namespace ArrayIndex

inductive Fault where
  | notText
  | dashNotAllowed
  | notAnIndex
  /-- More digits than a number may have. -/
  | tooManyDigits
  deriving DecidableEq, Repr

def Fault.message? : Fault → Option String
  | notText => some "value is not a string"
  | dashNotAllowed => some "dash not allowed for an array index in this pointer"
  | notAnIndex => some "invalid array index"
  | tooManyDigits => none

def digitLimit : Nat := 4300

def isDecimal : List Char → Bool
  | [] => false
  | ['0'] => true
  | first :: rest => first ≠ '0' && first.isDigit && rest.all Char.isDigit

def decimalValue (digits : List Char) : Nat :=
  digits.foldl (fun value digit => 10 * value + (digit.toNat - '0'.toNat)) 0

def position? (digits : List Char) : Except Fault Nat :=
  if isDecimal digits then
    if digits.length ≤ digitLimit then .ok (decimalValue digits) else .error .tooManyDigits
  else .error .notAnIndex

def ofText (dashAllowed : Bool) (token : String) : Except Fault ArrayIndex :=
  if token = "-" then
    if dashAllowed then .ok .afterLast else .error .dashNotAllowed
  else (position? token.toList).map .position

end ArrayIndex
end RecordAddress
