import RecordAddress.Text.LetterCase

/-! Styles by which the name of a property is made from the key that declares it. Any function can be a style. -/

namespace RecordAddress.Text

structure NamingStyle where
  /-- Styles are told apart by their titles. -/
  title : String
  /-- The name for a key, if the style has one for it. -/
  name? : String → Option String

/-- Drops each underscore that a character follows, and raises that character. A line break is no
character in this sense. -/
def raiseAfterUnderscores : List Char → List Char
  | '_' :: c :: rest =>
    if c = '\n' then '_' :: c :: raiseAfterUnderscores rest else upper c ++ raiseAfterUnderscores rest
  | c :: rest => c :: raiseAfterUnderscores rest
  | [] => []

/-- The first character is raised too, an underscore there being kept as it is. -/
def upperCamel : List Char → List Char
  | [] => []
  | c :: rest =>
    if c = '\n' then c :: raiseAfterUnderscores rest else upper c ++ raiseAfterUnderscores rest

/-- An empty key has no first letter to lower. -/
def lowerCamel? : List Char → Option (List Char)
  | [] => none
  | c :: rest => some (lower c ++ (upperCamel (c :: rest)).tail)

/-- Parts a run of capitals from the word that its last capital opens. -/
def partCapitals : List Char → List Char
  | first :: second :: third :: rest =>
    if first.isUpper && second.isUpper && third.isLower then first :: '_' :: partCapitals (second :: third :: rest)
    else first :: partCapitals (second :: third :: rest)
  | short => short

/-- Parts a small letter or digit from the capital after it. -/
def partWords : List Char → List Char
  | first :: second :: rest =>
    if (first.isLower || isDecimalDigit first) && second.isUpper then first :: '_' :: partWords (second :: rest)
    else first :: partWords (second :: rest)
  | short => short

def underscored (word : List Char) : List Char :=
  lowerWord [] ((partWords (partCapitals word)).map fun c => if c = '-' then '_' else c)

def dashed (word : List Char) : List Char :=
  word.map fun c => if c = '_' then '-' else c

namespace NamingStyle

/-- The key itself. -/
def verbatim : NamingStyle where
  title := "verbatim"
  name? := some

def lowerCamel : NamingStyle where
  title := "lower camel case"
  name? key := (lowerCamel? key.toList).map String.ofList

def upperCamel : NamingStyle where
  title := "upper camel case"
  name? key := some (String.ofList (Text.upperCamel key.toList))

def dashed : NamingStyle where
  title := "dashed"
  name? key := some (String.ofList (Text.dashed key.toList))

def underscored : NamingStyle where
  title := "underscored"
  name? key := some (String.ofList (Text.underscored key.toList))

end NamingStyle
end RecordAddress.Text
