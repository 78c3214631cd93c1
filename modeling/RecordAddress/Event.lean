/-! What the library reports while it works: pointers parsed, records changed, and record types that
a later definition takes over. -/

namespace RecordAddress

inductive Event where
  /-- A pointer text and the container it was parsed at. -/
  | parsed (pointer container : String)
  | added (pointer : String)
  | replaced (pointer : String)
  | removed (pointer : String)
  /-- The classes that held and that now hold the record type. -/
  | redefined (recordType former latter : String)
  deriving DecidableEq, Repr

inductive Event.Level where
  | debug
  | warning
  deriving DecidableEq, Repr

namespace Event

def level : Event → Level
  | redefined .. => .warning
  | _ => .debug

def message : Event → String
  | parsed pointer container =>
    "Parsed record element pointer \"" ++ pointer ++ "\" at " ++ container ++ "."
  | added pointer => "Added value at \"" ++ pointer ++ "\"."
  | replaced pointer => "Replaced value at \"" ++ pointer ++ "\"."
  | removed pointer => "Removed value at \"" ++ pointer ++ "\"."
  | redefined recordType former latter =>
    "Record type \"" ++ recordType ++ "\" of " ++ former ++ " is redefined by " ++ latter ++ "."

end Event
end RecordAddress
