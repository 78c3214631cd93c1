import RecordAddress.Token

/-! Pointers that know no schema: lists of tokens that can be composed. -/

namespace RecordAddress

structure Location where
  tokens : List String
  deriving DecidableEq, Repr

namespace Location

def parse (text : String) : Except Token.Fault Location :=
  (Token.split text).map Location.mk

def text (location : Location) : String :=
  Token.join location.tokens

/-- Whether the other location is this one or leads to it. -/
def contains (location other : Location) : Bool :=
  other.tokens.isPrefixOf location.tokens

def append (location other : Location) : Location :=
  ⟨location.tokens ++ other.tokens⟩

end Location
end RecordAddress
