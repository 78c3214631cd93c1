/-! Reference tokens of RFC 6901 pointers. A pointer text is a sequence of tokens, each written
after a slash; inside a token a tilde is written `~0` and a slash is written `~1`. -/

namespace RecordAddress.Token

def escapeChars : List Char → List Char
  | [] => []
  | '~' :: rest => '~' :: '0' :: escapeChars rest
  | '/' :: rest => '~' :: '1' :: escapeChars rest
  | c :: rest => c :: escapeChars rest

/-- Tildes are replaced first and slashes then, so that no escape is escaped again. -/
theorem escapeChars_eq_flatMap (chars : List Char) :
    escapeChars chars =
      (chars.flatMap fun c => if c = '~' then ['~', '0'] else [c]).flatMap fun c =>
        if c = '/' then ['~', '1'] else [c] := by
  fun_induction escapeChars chars with
  | case1 => rfl
  | case2 rest ih => simp [ih]
  | case3 rest ih => simp [ih]
  | case4 c rest noTilde noSlash ih =>
    have other : c ≠ '~' := noTilde
    simp [ih, other, show c ≠ '/' from noSlash]

/-- Inverts `escapeChars`; a tilde that opens no escape stands for itself. -/
def unescapeChars : List Char → List Char
  | [] => []
  | '~' :: '0' :: rest => '~' :: unescapeChars rest
  | '~' :: '1' :: rest => '/' :: unescapeChars rest
  | c :: rest => c :: unescapeChars rest

/-- The first tilde that opens no escape, with the character after it if there is one. -/
def badEscape? : List Char → Option (List Char)
  | [] => none
  | ['~'] => some ['~']
  | '~' :: c :: rest => if c = '0' ∨ c = '1' then badEscape? rest else some ['~', c]
  | _ :: rest => badEscape? rest

/-- The pieces between slashes: one more than there are slashes. -/
def splitAtSlashes : List Char → List (List Char)
  | [] => [[]]
  | '/' :: rest => [] :: splitAtSlashes rest
  | c :: rest =>
    match splitAtSlashes rest with
    | [] => [[c]]
    | piece :: pieces => (c :: piece) :: pieces

def escape (token : String) : String :=
  String.ofList (escapeChars token.toList)

inductive Fault where
  | badEscape (found : String)
  | noLeadingSlash
  deriving DecidableEq, Repr

def Fault.message : Fault → String
  | .badEscape found => "Found invalid escape " ++ found
  | .noLeadingSlash => "Location must start with /"

/-- The tokens of a pointer text. Escapes are checked before the leading slash. -/
def split (text : String) : Except Fault (List String) :=
  match badEscape? text.toList with
  | some found => .error (.badEscape (String.ofList found))
  | none =>
    match text.toList with
    | [] => .ok []
    | '/' :: rest => .ok ((splitAtSlashes rest).map fun piece => String.ofList (unescapeChars piece))
    | _ :: _ => .error .noLeadingSlash

def join : List String → String
  | [] => ""
  | token :: rest => "/" ++ escape token ++ join rest

end RecordAddress.Token
