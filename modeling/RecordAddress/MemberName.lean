/-! Names that properties and subtypes may have: ASCII letters, digits, hyphens and underscores,
with a letter or digit at both ends. -/

namespace RecordAddress.MemberName

def isInner (c : Char) : Bool :=
  c.isAlphanum || c = '-' || c = '_'

/-- Whether the characters may follow the first one of a name. -/
def endsName : List Char → Bool
  | [] => true
  | [c] => c.isAlphanum
  | c :: rest => isInner c && endsName rest

def allowed (name : String) : Bool :=
  match name.toList with
  | [] => false
  | first :: rest => first.isAlphanum && endsName rest

end RecordAddress.MemberName
